import LSystem.Proofs.Rule.Filing
import LSystem.Proofs.Rule.Probing
import Mathlib.Algebra.GroupWithZero.Nat

namespace LSystem

/-!
# Chains

The context of a rule is a chain.  Each link is looked for from where the lookup
of the one before has stopped, or from the origin again if its direction says so.
Here a chain is told by places alone, without a cursor that is moved about.  Main
statements: a rule matches exactly when its chain is complete and its condition
holds of the arguments of the whole chain; there are as many of these as the rule
declares, so neither a condition nor a production is ever given only a part of
them; and an attempt leaves the walk where it was.
-/

variable {V : Type}

/-! ## Links -/

/-- Where a lookup in a direction starts, given the origin and where the lookup
before has stopped, if that is inside the forest. -/
def Direction.start (direction : Direction) (origin : Place V) (focus : Option (Place V)) :
    Option (Place V) :=
  if direction.fromOrigin then some origin else focus

/-- The modules that context predecessors find one after another, when the lookup
before them has stopped at a focus. -/
inductive Chain (ignore : List Symbol) (origin : Place V) :
    Option (Place V) → List ContextPredecessor → List (Module V) → Prop where
  | done (focus : Option (Place V)) : Chain ignore origin focus [] []
  | link {focus : Option (Place V)} {place : Place V} {predecessor : ContextPredecessor}
      {rest : List ContextPredecessor} {letter : Module V} {letters : List (Module V)}
      (starts : predecessor.direction.start origin focus = some place)
      (found : (place.lookUp ignore predecessor.direction.axis).found = some letter)
      (fits : letter.signature = predecessor.signature)
      (onward : Chain ignore origin (place.lookUp ignore predecessor.direction.axis).place rest
        letters) :
      Chain ignore origin focus (predecessor :: rest) (letter :: letters)

namespace Chain

variable {ignore : List Symbol} {origin : Place V} {focus : Option (Place V)}
  {context : List ContextPredecessor} {letters : List (Module V)}

/-- There is at most one chain. -/
theorem unique {others : List (Module V)} (chain : Chain ignore origin focus context letters)
    (other : Chain ignore origin focus context others) : letters = others := by
  induction chain generalizing others with
  | done focus =>
      cases other
      rfl
  | link starts found fits onward inductionHypothesis =>
      cases other with
      | link otherStarts otherFound otherFits otherOnward =>
          cases starts.symm.trans otherStarts
          cases found.symm.trans otherFound
          rw [inductionHypothesis otherOnward]

/-- A chain has the signatures that are asked for, in the same order. -/
theorem signatures (chain : Chain ignore origin focus context letters) :
    letters.map (·.signature) = context.map (·.signature) := by
  induction chain with
  | done focus => rfl
  | link starts found fits onward inductionHypothesis =>
      rw [List.map_cons, List.map_cons, fits, inductionHypothesis]

end Chain

theorem Cursor.navigate_eq (ignore : List Symbol) (direction : Direction) (cursor : Cursor V) :
    cursor.navigate ignore direction =
      match direction.start cursor.position cursor.context with
      | none => (none, ⟨cursor.position, none⟩)
      | some place =>
          ((place.lookUp ignore direction.axis).found,
            ⟨cursor.position, (place.lookUp ignore direction.axis).place⟩) := by
  rcases cursor with ⟨position, context⟩
  rcases direction with ⟨axis, fromOrigin⟩
  cases fromOrigin with
  | true => rfl
  | false =>
      cases context with
      | none => rfl
      | some place => rfl

namespace CompiledRule

/-! ## Following a chain -/

section Following

variable {ignore : List Symbol} {predecessor : ContextPredecessor}
  {rest : List ContextPredecessor} {position place : Place V} {focus : Option (Place V)}
  {letter : Module V}

theorem follow_of_start_eq_none
    (outside : predecessor.direction.start position focus = none) :
    (follow ignore (predecessor :: rest) ⟨position, focus⟩).1 = none := by
  rw [follow, Cursor.navigate_eq]
  dsimp only
  rw [outside]

theorem follow_of_found_eq_none
    (starts : predecessor.direction.start position focus = some place)
    (missing : (place.lookUp ignore predecessor.direction.axis).found = none) :
    (follow ignore (predecessor :: rest) ⟨position, focus⟩).1 = none := by
  rw [follow, Cursor.navigate_eq]
  dsimp only
  rw [starts]
  dsimp only
  rw [missing]

theorem follow_of_found
    (starts : predecessor.direction.start position focus = some place)
    (found : (place.lookUp ignore predecessor.direction.axis).found = some letter) :
    (follow ignore (predecessor :: rest) ⟨position, focus⟩).1 =
      if letter.signature = predecessor.signature then
        (follow ignore rest
          ⟨position, (place.lookUp ignore predecessor.direction.axis).place⟩).1.map
            (letter.arguments ++ ·)
      else none := by
  rw [follow, Cursor.navigate_eq]
  dsimp only
  rw [starts]
  dsimp only
  rw [found]
  dsimp only
  split
  · rfl
  · rfl

end Following

/-- What is gathered are the arguments of the whole chain. -/
theorem follow_eq_some_iff {ignore : List Symbol} {context : List ContextPredecessor}
    {position : Place V} {focus : Option (Place V)} {arguments : List V} :
    (follow ignore context ⟨position, focus⟩).1 = some arguments ↔
      ∃ letters, Chain ignore position focus context letters ∧
        arguments = letters.flatMap (·.arguments) := by
  constructor
  · intro followed
    -- One predecessor after another: the focus is where the lookup before has stopped.
    induction context generalizing focus arguments with
    | nil =>
        cases followed
        exact ⟨[], .done focus, rfl⟩
    | cons predecessor rest inductionHypothesis =>
        rcases starts : predecessor.direction.start position focus with _ | place
        · rw [follow_of_start_eq_none starts] at followed
          cases followed
        rcases found : (place.lookUp ignore predecessor.direction.axis).found with _ | letter
        · rw [follow_of_found_eq_none starts found] at followed
          cases followed
        rw [follow_of_found starts found] at followed
        by_cases fits : letter.signature = predecessor.signature
        · rw [if_pos fits, Option.map_eq_some_iff] at followed
          rcases followed with ⟨further, later, rfl⟩
          rcases inductionHypothesis later with ⟨letters, chain, rfl⟩
          exact ⟨letter :: letters, .link starts found fits chain, List.flatMap_cons.symm⟩
        · rw [if_neg fits] at followed
          cases followed
  · rintro ⟨letters, chain, rfl⟩
    induction chain with
    | done focus => rfl
    | link starts found fits onward inductionHypothesis =>
        rw [follow_of_found starts found, if_pos fits, inductionHypothesis, List.flatMap_cons]
        rfl

/-! ## Arguments -/

/-- How many arguments the predecessors of a rule have, all together. -/
def arity (rule : CompiledRule V) : Nat :=
  rule.strict.arity + (rule.context.map (·.signature.arity)).sum

/-- A complete chain has the declared number of arguments. -/
theorem length_of_chain {ignore : List Symbol} {rule : CompiledRule V} {letter : Module V}
    {letters : List (Module V)} {origin : Place V} {focus : Option (Place V)}
    (strict : letter.signature = rule.strict)
    (chain : Chain ignore origin focus rule.context letters) :
    ((letter :: letters).flatMap (·.arguments)).length = rule.arity := by
  have own : letter.arguments.length = rule.strict.arity := congrArg (·.arity) strict
  have others := congrArg (List.map (·.arity)) chain.signatures
  rw [List.map_map, List.map_map] at others
  have gathered : (letters.flatMap (·.arguments)).length =
      (rule.context.map (·.signature.arity)).sum := by
    rw [List.length_flatMap]
    exact congrArg List.sum others
  rw [List.flatMap_cons, List.length_append, own, gathered, arity]

/-- Compiling keeps all that is declared about the context. -/
theorem declared_of_readContext {index position : Nat} {predecessors : List Predecessor}
    {context : List ContextPredecessor}
    (read : readContext index position predecessors = .ok context) :
    predecessors.map (fun predecessor => (predecessor.signature, predecessor.direction)) =
      context.map fun predecessor => (predecessor.signature, some predecessor.direction.tag) := by
  induction predecessors generalizing position context with
  | nil =>
      cases read
      rfl
  | cons predecessor rest inductionHypothesis =>
      rcases readContext_cons_eq_ok_iff.mp read with
        ⟨tag, direction, following, directed, known, later, rfl⟩
      have spelled : tag = direction.tag := Direction.ofTag?_eq_some_iff.mp known
      rw [List.map_cons, List.map_cons, directed, spelled, inductionHypothesis later]

/-- The predecessors of a compiled rule are those of its declaration. -/
theorem declared_of_compile {index : Nat} {source : Rule V} {rule : CompiledRule V}
    (accepted : compile index source = .ok rule) :
    source.predecessors.map (fun predecessor => (predecessor.signature, predecessor.direction)) =
      (rule.strict, none) ::
        rule.context.map fun predecessor =>
          (predecessor.signature, some predecessor.direction.tag) := by
  have checks := compile_eq_ok accepted
  rcases checks.strict with ⟨strict, first, undirected, signature⟩
  have read := declared_of_readContext checks.context
  rcases predecessors : source.predecessors with _ | ⟨head, tail⟩
  · rw [predecessors] at first
    cases first
  · rw [predecessors] at first read
    cases first
    rw [List.map_cons, undirected, signature]
    exact congrArg _ read

theorem arity_of_compile {index : Nat} {source : Rule V} {rule : CompiledRule V}
    (accepted : compile index source = .ok rule) :
    rule.arity = (source.predecessors.map (·.arity)).sum := by
  have declared := congrArg (List.map (·.1.arity)) (declared_of_compile accepted)
  rw [List.map_map, List.map_cons, List.map_map] at declared
  exact (congrArg List.sum declared).symm

/-! ## Matching -/

section Matching

variable {ignore : List Symbol} {rule : CompiledRule V} {letter : Module V} {cursor : Cursor V}

theorem matchAt_of_strict (strict : letter.signature = rule.strict) :
    rule.matchAt ignore letter cursor =
      (((follow ignore rule.context cursor.resetContext).1.map (letter.arguments ++ ·)).filter
          rule.admits,
        (follow ignore rule.context cursor.resetContext).2) := by
  unfold matchAt
  rw [if_pos strict]

theorem matchAt_of_not_strict (different : ¬ letter.signature = rule.strict) :
    rule.matchAt ignore letter cursor = (none, cursor.resetContext) := by
  unfold matchAt
  rw [if_neg different]

/-- A rule matches if its chain is complete and its condition holds. -/
theorem matchAt_eq_some_iff {arguments : List V} :
    (rule.matchAt ignore letter cursor).1 = some arguments ↔
      letter.signature = rule.strict ∧
        ∃ letters, Chain ignore cursor.position (some cursor.position) rule.context letters ∧
          arguments = (letter :: letters).flatMap (·.arguments) ∧ rule.admits arguments = true := by
  by_cases strict : letter.signature = rule.strict
  · rw [matchAt_of_strict strict, Option.filter_eq_some_iff, Option.map_eq_some_iff]
    constructor
    · rintro ⟨⟨gathered, followed, rfl⟩, admitted⟩
      rcases follow_eq_some_iff.mp followed with ⟨letters, chain, rfl⟩
      exact ⟨strict, letters, chain, List.flatMap_cons.symm, admitted⟩
    · rintro ⟨-, letters, chain, rfl, admitted⟩
      refine ⟨⟨letters.flatMap (·.arguments), ?_, List.flatMap_cons.symm⟩, admitted⟩
      exact follow_eq_some_iff.mpr ⟨letters, chain, rfl⟩
  · rw [matchAt_of_not_strict strict]
    constructor
    · rintro ⟨⟩
    · rintro ⟨same, -⟩
      exact absurd same strict

/-- The same rule under another condition, or under none. -/
def under (condition : Option (Condition V)) (rule : CompiledRule V) : CompiledRule V :=
  { rule with condition }

/-- Of a condition only its verdict on the arguments of a whole chain matters. -/
theorem matchAt_condition {other : Option (Condition V)}
    (same : ∀ letters : List (Module V), letter.signature = rule.strict →
      Chain ignore cursor.position (some cursor.position) rule.context letters →
      (rule.under other).admits ((letter :: letters).flatMap (·.arguments)) =
        rule.admits ((letter :: letters).flatMap (·.arguments))) :
    (rule.under other).matchAt ignore letter cursor = rule.matchAt ignore letter cursor := by
  have sameContext : (rule.under other).context = rule.context := rfl
  by_cases strict : letter.signature = rule.strict
  · have alike : letter.signature = (rule.under other).strict := strict
    rw [matchAt_of_strict strict, matchAt_of_strict alike, sameContext]
    rcases followed : follow ignore rule.context cursor.resetContext with ⟨_ | gathered, after⟩
    · rfl
    · have found : (follow ignore rule.context cursor.resetContext).1 = some gathered := by
        rw [followed]
      rcases follow_eq_some_iff.mp found with ⟨letters, chain, rfl⟩
      have verdict := same letters strict chain
      rw [List.flatMap_cons] at verdict
      dsimp only
      rw [Option.map_some, Option.filter_some, Option.filter_some, verdict]
  · have different : ¬ letter.signature = (rule.under other).strict := strict
    rw [matchAt_of_not_strict strict, matchAt_of_not_strict different]

end Matching

/-- A replacement is made by one of the productions from the arguments given. -/
theorem exists_threshold_of_produce {rule : CompiledRule V} {arguments : List V} {chance : Chance}
    {replacement : Forest V} (made : (rule.produce arguments chance).1 = .ok replacement) :
    ∃ threshold ∈ rule.thresholds, replacement = threshold.production arguments := by
  unfold produce at made
  split at made
  · next only single =>
      cases made
      refine ⟨only, ?_, rfl⟩
      rw [single]
      exact List.mem_singleton_self only
  · dsimp only at made
    split at made
    · next threshold chosen =>
        cases made
        exact ⟨threshold, List.mem_of_find?_eq_some chosen, rfl⟩
    · cases made

end CompiledRule

/-- A replacement is made by a rule that matches, from the arguments of its match. -/
theorem RuleTable.exists_match_of_derive {table : RuleTable V} {ignore : List Symbol}
    {letter : Module V} {cursor : Cursor V} {chance : Chance} {replacement : Forest V}
    (derived : (table.derive ignore letter cursor chance).outcome = .ok (some replacement)) :
    ∃ (rule : CompiledRule V) (arguments : List V),
      (rule.matchAt ignore letter cursor).1 = some arguments ∧
        ∃ threshold ∈ rule.thresholds, replacement = threshold.production arguments := by
  have fired := congrArg Prod.fst (table.derive_eq_firing? ignore letter cursor chance)
  rcases fires : table.firing? ignore letter cursor.position with _ | ⟨rule, arguments⟩
  · rw [fires] at fired
    cases derived.symm.trans fired
  · rw [fires] at fired
    dsimp only at fired
    rcases made : (rule.produce arguments chance).1 with error | fragment
    · rw [made] at fired
      cases derived.symm.trans fired
    · rw [made] at fired
      cases derived.symm.trans fired
      rcases List.exists_of_findSome?_eq_some fires with ⟨candidate, -, attempted⟩
      rcases Option.map_eq_some_iff.mp attempted with ⟨gathered, matched, same⟩
      cases same
      exact ⟨rule, arguments, matched, rule.exists_threshold_of_produce made⟩

/-! ## Matching by chains -/

open CompiledRule

/-- What it means that rules are matched by their chains against a module, whatever
has been looked up by the cursor that has produced it. -/
structure MatchesChains (ignore : List Symbol) (letter : Module V) (cursor : Cursor V) :
    Prop where
  /-- A match needs the module that is to be replaced, a complete chain from the
  position of the walk, and a condition that holds of all arguments, in the order of
  the predecessors. -/
  matched : ∀ (rule : CompiledRule V) arguments,
    (rule.matchAt ignore letter cursor).1 = some arguments ↔
      letter.signature = rule.strict ∧
        ∃ letters, Chain ignore cursor.position (some cursor.position) rule.context letters ∧
          arguments = (letter :: letters).flatMap (·.arguments) ∧ rule.admits arguments = true
  /-- There is at most one complete chain. -/
  unambiguous : ∀ (rule : CompiledRule V) letters others,
    Chain ignore cursor.position (some cursor.position) rule.context letters →
    Chain ignore cursor.position (some cursor.position) rule.context others → letters = others
  /-- In all other cases there is no match. -/
  unmatched : ∀ rule : CompiledRule V,
    (letter.signature = rule.strict → ∀ letters,
      Chain ignore cursor.position (some cursor.position) rule.context letters →
        rule.admits ((letter :: letters).flatMap (·.arguments)) = false) →
    (rule.matchAt ignore letter cursor).1 = none
  /-- The predecessors are the declared ones, with their signatures and directions. -/
  declared : ∀ index (source : Rule V) rule, compile index source = .ok rule →
    source.predecessors.map (fun predecessor => (predecessor.signature, predecessor.direction)) =
      (rule.strict, none) ::
        rule.context.map fun predecessor =>
          (predecessor.signature, some predecessor.direction.tag)
  /-- A match has as many arguments as its predecessors declare. -/
  counted : ∀ (rule : CompiledRule V) arguments,
    (rule.matchAt ignore letter cursor).1 = some arguments →
    arguments.length = rule.arity ∧
      ∀ index source, compile index source = .ok rule →
        arguments.length = (source.predecessors.map (·.arity)).sum
  /-- What a condition says of anything but the arguments of a complete chain makes no
  difference, so it may as well never be asked. -/
  unasked : ∀ (rule : CompiledRule V) (other : Option (Condition V)),
    (∀ letters : List (Module V), letter.signature = rule.strict →
      Chain ignore cursor.position (some cursor.position) rule.context letters →
      (rule.under other).admits ((letter :: letters).flatMap (·.arguments)) =
        rule.admits ((letter :: letters).flatMap (·.arguments))) →
    (rule.under other).matchAt ignore letter cursor = rule.matchAt ignore letter cursor
  /-- In particular it makes no difference what it says of any other number of arguments
  than the declared one. -/
  conditioned : ∀ (rule : CompiledRule V) (other : Option (Condition V)),
    (∀ arguments : List V, arguments.length = rule.arity →
      (rule.under other).admits arguments = rule.admits arguments) →
    (rule.under other).matchAt ignore letter cursor = rule.matchAt ignore letter cursor
  /-- A production is given the arguments of a match, in the declared number. -/
  produced : ∀ (table : RuleTable V) chance replacement,
    (table.derive ignore letter cursor chance).outcome = .ok (some replacement) →
    ∃ (rule : CompiledRule V) (arguments : List V),
      (rule.matchAt ignore letter cursor).1 = some arguments ∧
      arguments.length = rule.arity ∧
      ∃ threshold ∈ rule.thresholds, replacement = threshold.production arguments
  /-- The walk stays where it is. -/
  unmoved : ∀ rule : CompiledRule V,
    (rule.matchAt ignore letter cursor).2.position = cursor.position
  /-- Where earlier lookups have got to makes no difference. -/
  regardless : ∀ (rule : CompiledRule V) (context : Option (Place V)),
    rule.matchAt ignore letter ⟨cursor.position, context⟩ = rule.matchAt ignore letter cursor
  /-- A bookmark that stands for the cursor comes to the same, match or not. -/
  bookmarked : ∀ (rule : CompiledRule V) forest (mark : Bookmark), mark.WellFormed forest →
    mark.cursor forest = cursor →
    ∃ after, mark.pursue forest ignore (rule.inquiry letter) =
        some ((rule.matchAt ignore letter cursor).1, after) ∧
      after.WellFormed forest ∧ (after.cursor forest).position = cursor.position

theorem matchesChains (ignore : List Symbol) (letter : Module V) (cursor : Cursor V) :
    MatchesChains ignore letter cursor := by
  have counted (rule : CompiledRule V) (arguments : List V)
      (matched : (rule.matchAt ignore letter cursor).1 = some arguments) :
      arguments.length = rule.arity := by
    rcases matchAt_eq_some_iff.mp matched with ⟨strict, letters, chain, rfl, -⟩
    exact length_of_chain strict chain
  exact
    { matched := fun rule arguments => matchAt_eq_some_iff
      unambiguous := fun rule letters others chain other => chain.unique other
      unmatched := by
        intro rule refused
        rw [Option.eq_none_iff_forall_ne_some]
        intro arguments matched
        rcases matchAt_eq_some_iff.mp matched with ⟨strict, letters, chain, rfl, admitted⟩
        rw [refused strict letters chain] at admitted
        cases admitted
      declared := fun index source rule => declared_of_compile
      counted := by
        intro rule arguments matched
        refine ⟨counted rule arguments matched, ?_⟩
        intro index source accepted
        rw [counted rule arguments matched, arity_of_compile accepted]
      unasked := fun rule other => matchAt_condition
      conditioned := by
        intro rule other same
        apply matchAt_condition
        intro letters strict chain
        exact same _ (length_of_chain strict chain)
      produced := by
        intro table chance replacement derived
        rcases RuleTable.exists_match_of_derive derived with ⟨rule, arguments, matched, made⟩
        exact ⟨rule, arguments, matched, counted rule arguments matched, made⟩
      unmoved := fun rule => rule.position_matchAt ignore letter cursor
      regardless := fun rule context => rfl
      bookmarked := by
        rintro rule forest mark wellFormed rfl
        rcases wellFormed.pursue ignore (rule.inquiry letter) with
          ⟨arguments, after, result, fits, same⟩
        rw [CompiledRule.pursue_inquiry] at same
        have stays := rule.position_matchAt ignore letter (mark.cursor forest)
        rw [same] at stays ⊢
        exact ⟨after, result, fits, stays⟩ }

namespace Twig

/-- A twig with a bud and a leaf. -/
def forest : Forest Nat :=
  [.leaf ⟨⟨"F"⟩, [1]⟩, .branch [.leaf ⟨⟨"bud"⟩, [2]⟩, .leaf ⟨⟨"leaf"⟩, [3]⟩]]

/-- Asks for the segment that a bud is on, and for the leaf next to the bud or, if the
search does not start over, next to that segment. -/
def besideLeaf (fromOrigin : Bool) : CompiledRule Nat :=
  ⟨0, ⟨⟨"bud"⟩, 1⟩,
    [⟨⟨⟨"F"⟩, 1⟩, ⟨.parent, false⟩⟩, ⟨⟨⟨"leaf"⟩, 1⟩, ⟨.nextSibling, fromOrigin⟩⟩],
    some fun arguments => arguments = [2, 1, 3], []⟩

/-- From the bud the leaf is found, and from the segment it is not. -/
theorem matchesChains_bud :
    ∃ bud : Place Nat, Place.after forest 3 = some bud ∧
      MatchesChains [] ⟨⟨"bud"⟩, [2]⟩ (.on bud) ∧
      ((besideLeaf true).matchAt [] ⟨⟨"bud"⟩, [2]⟩ (.on bud)).1 = some [2, 1, 3] ∧
      ((besideLeaf false).matchAt [] ⟨⟨"bud"⟩, [2]⟩ (.on bud)).1 = none :=
  ⟨_, rfl, matchesChains _ _ _, by decide +kernel, by decide +kernel⟩

end Twig
end LSystem
