import LSystem.Demo.Catalog
import LSystem.Proofs.Rule.Filing
import LSystem.Proofs.Rule.Firing
import Mathlib.Logic.Equiv.Defs

namespace LSystem

/-!
# Selection

Someone who has only the list of rules can say what becomes of a module without
any buckets: match every rule of the list, and of those that match take the one
of the highest rank, the first of them if there are several.  Main statement: a
table derives exactly this, with just the draw that the rule calls for.  So the
order of the list is of no account except among rules of the same signature and
the same rank.
-/

variable {V : Type}

/-! ## Scanning a list of rules -/

/-- A rule with its number, what the checks make of it, and the arguments that
it gathers. -/
structure Candidate (V : Type) where
  index : Nat
  rule : Rule V
  compiled : CompiledRule V
  arguments : List V

namespace Candidate

section Scanning

variable (rules : List (Rule V)) (ignore : List Symbol) (letter : Module V) (place : Place V)

/-- A rule of the list that matches a module at a place. -/
structure Matches (candidate : Candidate V) : Prop where
  declared : rules[candidate.index]? = some candidate.rule
  checked : CompiledRule.compile candidate.index candidate.rule = .ok candidate.compiled
  matched : (candidate.compiled.matchAt ignore letter (.on place)).1 = some candidate.arguments

/-- The higher rank wins, and at the same rank the smaller number. -/
def Outranks (first second : Candidate V) : Prop :=
  second.rule.rank < first.rule.rank ∨
    first.rule.rank = second.rule.rank ∧ first.index ≤ second.index

/-- The one that is taken of all rules of the list that match. -/
structure Prevails (candidate : Candidate V) : Prop where
  candidate_matches : candidate.Matches rules ignore letter place
  outranks : ∀ rival, rival.Matches rules ignore letter place → candidate.Outranks rival

end Scanning

end Candidate

/-- The first production such that the probabilities up to its own sum up to more
than was drawn. -/
def Rule.chooseFrom (draw sum : Float) : List (Successor V) → Option (Production V)
  | [] => none
  | successor :: rest =>
      if draw < sum + successor.probability then some successor.production
      else chooseFrom draw (sum + successor.probability) rest

/-- The production that a draw chooses. -/
def Rule.choice (rule : Rule V) (draw : Float) : Option (Production V) :=
  chooseFrom draw 0.0 rule.successors

/-- What becomes of a module, and of the source of chance, when all rules of a
list are tried. -/
inductive Scan (rules : List (Rule V)) (ignore : List Symbol) (letter : Module V)
    (place : Place V) (chance : Chance) :
    Except ConfigurationError (Option (Forest V)) → Chance → Prop where
  | unmatched (fails : ∀ candidate : Candidate V, ¬ candidate.Matches rules ignore letter place) :
      Scan rules ignore letter place chance (.ok none) chance
  | certain (candidate : Candidate V) (prevails : candidate.Prevails rules ignore letter place)
      (only : Successor V) (single : candidate.rule.successors = [only]) :
      Scan rules ignore letter place chance
        (.ok (some (only.production candidate.arguments))) chance
  | chosen (candidate : Candidate V) (prevails : candidate.Prevails rules ignore letter place)
      (several : 1 < candidate.rule.successors.length) (production : Production V)
      (choice : candidate.rule.choice chance.draw.1 = some production) :
      Scan rules ignore letter place chance
        (.ok (some (production candidate.arguments))) chance.draw.2
  | inconsistent (candidate : Candidate V)
      (prevails : candidate.Prevails rules ignore letter place)
      (several : 1 < candidate.rule.successors.length)
      (choice : candidate.rule.choice chance.draw.1 = none) :
      Scan rules ignore letter place chance
        (.error (.inconsistentThresholds candidate.index chance.draw.1)) chance.draw.2

/-! ## At most one result -/

namespace Candidate

variable {rules : List (Rule V)} {ignore : List Symbol} {letter : Module V} {place : Place V}

theorem Matches.eq_of_index_eq {first second : Candidate V}
    (firstMatches : first.Matches rules ignore letter place)
    (secondMatches : second.Matches rules ignore letter place)
    (same : first.index = second.index) : first = second := by
  rcases first with ⟨index, rule, compiled, arguments⟩
  rcases second with ⟨_, otherRule, otherCompiled, otherArguments⟩
  cases same
  cases firstMatches.declared.symm.trans secondMatches.declared
  cases firstMatches.checked.symm.trans secondMatches.checked
  cases firstMatches.matched.symm.trans secondMatches.matched
  rfl

theorem Prevails.checks {candidate : Candidate V}
    (prevails : candidate.Prevails rules ignore letter place) :
    CompiledRule.Checks candidate.index candidate.rule candidate.compiled :=
  CompiledRule.compile_eq_ok prevails.candidate_matches.checked

/-- No two rules prevail. -/
theorem Prevails.unique {first second : Candidate V}
    (firstPrevails : first.Prevails rules ignore letter place)
    (secondPrevails : second.Prevails rules ignore letter place) : first = second := by
  have ahead := firstPrevails.outranks second secondPrevails.candidate_matches
  have behind := secondPrevails.outranks first firstPrevails.candidate_matches
  refine firstPrevails.candidate_matches.eq_of_index_eq secondPrevails.candidate_matches ?_
  unfold Outranks at ahead behind
  omega

end Candidate

/-- What prevails makes a replacement or complains. -/
theorem Candidate.Prevails.exists_scan {rules : List (Rule V)} {ignore : List Symbol}
    {letter : Module V} {place : Place V} {candidate : Candidate V}
    (prevails : candidate.Prevails rules ignore letter place) (chance : Chance) :
    ∃ outcome after, Scan rules ignore letter place chance outcome after := by
  rcases successors : candidate.rule.successors with _ | ⟨only, _ | ⟨second, rest⟩⟩
  · exact absurd successors prevails.checks.successors_ne_nil
  · exact ⟨_, _, .certain candidate prevails only successors⟩
  · have several : 1 < candidate.rule.successors.length := by
      rw [successors, List.length_cons, List.length_cons]
      omega
    rcases choice : candidate.rule.choice chance.draw.1 with _ | production
    · exact ⟨_, _, .inconsistent candidate prevails several choice⟩
    · exact ⟨_, _, .chosen candidate prevails several production choice⟩

/-! ## Choosing a successor -/

namespace CompiledRule

/-- The first running sum above a draw belongs to the production that the draw
chooses. -/
theorem find?_accumulate {number : Nat} {sum : Float} {successors : List (Successor V)}
    {thresholds : List (Threshold V)}
    (summed : accumulate number sum successors = .ok thresholds) (draw : Float) :
    (thresholds.find? fun threshold => draw < threshold.cumulative).map (·.production) =
      Rule.chooseFrom draw sum successors := by
  induction successors generalizing sum thresholds with
  | nil =>
      unfold accumulate at summed
      split at summed <;> cases summed
      rfl
  | cons successor rest inductionHypothesis =>
      rcases accumulate_cons_eq_ok_iff.mp summed with ⟨-, following, later, rfl⟩
      rw [List.find?_cons, Rule.chooseFrom]
      by_cases exceeds : draw < sum + successor.probability
      · rw [if_pos exceeds, decide_eq_true exceeds]
        rfl
      · rw [if_neg exceeds, decide_eq_false exceeds]
        exact inductionHypothesis later

namespace Checks

variable {index : Nat} {rule : Rule V} {compiled : CompiledRule V}

theorem produce_of_single (checks : Checks index rule compiled) {only : Successor V}
    (single : rule.successors = [only]) (arguments : List V) (chance : Chance) :
    compiled.produce arguments chance = (.ok (only.production arguments), chance) := by
  have summed := checks.thresholds
  rw [single] at summed
  rcases accumulate_cons_eq_ok_iff.mp summed with ⟨-, following, later, thresholds⟩
  have nothing := length_of_accumulate later
  rw [List.length_nil, List.length_eq_zero_iff] at nothing
  rw [produce, thresholds, nothing]

theorem produce_of_several (checks : Checks index rule compiled)
    (several : 1 < rule.successors.length) (arguments : List V) (chance : Chance) :
    compiled.produce arguments chance =
      (match rule.choice chance.draw.1 with
        | some production => .ok (production arguments)
        | none => .error (.inconsistentThresholds index chance.draw.1), chance.draw.2) := by
  have length := checks.length_thresholds
  rw [Rule.choice, ← find?_accumulate checks.thresholds]
  unfold produce
  split
  · next only single =>
      rw [single, List.length_singleton] at length
      omega
  · dsimp only
    rw [checks.index_eq]
    cases compiled.thresholds.find? fun threshold => decide (chance.draw.1 < threshold.cumulative)
      <;> rfl

end Checks

/-- A rule only matches modules of the signature of its strict predecessor. -/
theorem strict_of_matchAt {ignore : List Symbol} {rule : CompiledRule V} {letter : Module V}
    {cursor : Cursor V} {arguments : List V}
    (matched : (rule.matchAt ignore letter cursor).1 = some arguments) :
    rule.strict = letter.signature := by
  unfold matchAt at matched
  split at matched
  · next same => exact same.symm
  · cases matched

end CompiledRule

/-! ## Deriving is scanning -/

/-- The first hit in a sorted bucket precedes all others. -/
theorem Bucket.foremost_of_findSome? {α : Type} {rules : List (CompiledRule V)}
    {test : CompiledRule V → Option α} {result : α}
    (sorted : rules.Pairwise CompiledRule.Precedes) (found : rules.findSome? test = some result) :
    ∃ first ∈ rules, test first = some result ∧
      ∀ rival ∈ rules, (test rival).isSome = true → first = rival ∨ first.Precedes rival := by
  rcases List.findSome?_eq_some_iff.mp found with ⟨before, first, behind, rfl, hit, missed⟩
  rw [List.pairwise_append, List.pairwise_cons] at sorted
  refine ⟨first, List.mem_append_right _ List.mem_cons_self, hit, ?_⟩
  intro rival member alsoHit
  rcases List.mem_append.mp member with earlier | later
  · rw [missed rival earlier] at alsoHit
    cases alsoHit
  · rcases List.mem_cons.mp later with same | later
    · exact .inl same.symm
    · exact .inr (sorted.2.1.1 rival later)

/-- The order in a bucket is that of the candidates. -/
theorem Candidate.outranks_of_precedes {first second : Candidate V}
    (firstChecked : CompiledRule.compile first.index first.rule = .ok first.compiled)
    (secondChecked : CompiledRule.compile second.index second.rule = .ok second.compiled)
    (leads : first.compiled = second.compiled ∨ first.compiled.Precedes second.compiled) :
    first.Outranks second := by
  have firstChecks := CompiledRule.compile_eq_ok firstChecked
  have secondChecks := CompiledRule.compile_eq_ok secondChecked
  rw [Outranks, ← firstChecks.rank_eq, ← secondChecks.rank_eq, ← firstChecks.index_eq,
    ← secondChecks.index_eq]
  rcases leads with same | higher | ⟨sameRank, earlier⟩
  · rw [same]
    exact .inr ⟨rfl, Nat.le_refl _⟩
  · exact .inl higher
  · exact .inr ⟨sameRank, Nat.le_of_lt earlier⟩

namespace RuleTable

theorem pairwise_bucket? {rules : List (Rule V)} {table : RuleTable V}
    (accepted : ofRules rules = .ok table) (signature : Signature) :
    ((table.bucket? signature).getD []).Pairwise CompiledRule.Precedes := by
  rcases files_ofRules accepted with ⟨_, _, files⟩
  exact files.pairwise signature

/-- The rules in a bucket are those of the list that have its signature. -/
theorem mem_bucket?_iff {rules : List (Rule V)} {table : RuleTable V}
    (accepted : ofRules rules = .ok table) {signature : Signature} {compiled : CompiledRule V} :
    compiled ∈ (table.bucket? signature).getD [] ↔
      ∃ rule, rules[compiled.index]? = some rule ∧
        CompiledRule.compile compiled.index rule = .ok compiled ∧
        compiled.strict = signature := by
  rcases files_ofRules accepted with ⟨all, checked, files⟩
  rw [files.mem_iff]
  constructor
  · rintro ⟨member, same⟩
    rcases List.mem_iff_getElem?.mp member with ⟨position, here⟩
    have index := index_of_compileFrom checked here
    have compiles := compileFrom_eq_ok checked position
    rw [here, Option.map_some, ← index] at compiles
    rw [Nat.zero_add] at index
    rcases Option.map_eq_some_iff.mp compiles with ⟨rule, declared, compiles⟩
    exact ⟨rule, index ▸ declared, compiles, same⟩
  · rintro ⟨rule, declared, compiles, same⟩
    have here := compileFrom_eq_ok checked compiled.index
    rw [declared, Option.map_some, Nat.zero_add, compiles] at here
    rcases Option.map_eq_some_iff.mp here.symm with ⟨_, here, ⟨⟩⟩
    exact ⟨List.mem_of_getElem? here, same⟩

section Firing

variable {rules : List (Rule V)} {table : RuleTable V} (accepted : ofRules rules = .ok table)
  {ignore : List Symbol} {letter : Module V} {place : Place V}

include accepted

/-- Whatever matches is in the bucket of the module. -/
theorem mem_bucket?_of_matches {candidate : Candidate V}
    (fits : candidate.Matches rules ignore letter place) :
    candidate.compiled ∈ (table.bucket? letter.signature).getD [] := by
  rw [mem_bucket?_iff accepted]
  have index := (CompiledRule.compile_eq_ok fits.checked).index_eq
  refine ⟨candidate.rule, ?_, ?_, CompiledRule.strict_of_matchAt fits.matched⟩
  · rw [index]
    exact fits.declared
  · rw [index]
    exact fits.checked

/-- Nothing fires if nothing matches. -/
theorem not_matches_of_firing? (silent : table.firing? ignore letter place = none)
    (candidate : Candidate V) : ¬ candidate.Matches rules ignore letter place := by
  intro fits
  have missed := List.findSome?_eq_none_iff.mp silent _ (mem_bucket?_of_matches accepted fits)
  rw [fits.matched] at missed
  cases missed

/-- The rule that fires prevails over all rules of the list. -/
theorem prevails_of_firing? {compiled : CompiledRule V} {arguments : List V}
    (fires : table.firing? ignore letter place = some (compiled, arguments)) :
    ∃ candidate : Candidate V, candidate.Prevails rules ignore letter place ∧
      candidate.compiled = compiled ∧ candidate.arguments = arguments := by
  rcases Bucket.foremost_of_findSome? (pairwise_bucket? accepted letter.signature) fires with
    ⟨first, member, matched, leads⟩
  rcases Option.map_eq_some_iff.mp matched with ⟨gathered, matched, same⟩
  cases same
  rcases (mem_bucket?_iff accepted).mp member with ⟨rule, declared, checked, -⟩
  refine ⟨⟨compiled.index, rule, compiled, arguments⟩, ⟨⟨declared, checked, matched⟩, ?_⟩, rfl, rfl⟩
  intro rival fits
  refine Candidate.outranks_of_precedes checked fits.checked
    (leads rival.compiled (mem_bucket?_of_matches accepted fits) ?_)
  rw [fits.matched]
  rfl

theorem firing?_of_prevails {candidate : Candidate V}
    (prevails : candidate.Prevails rules ignore letter place) :
    table.firing? ignore letter place = some (candidate.compiled, candidate.arguments) := by
  rcases fires : table.firing? ignore letter place with _ | ⟨compiled, arguments⟩
  · exact absurd prevails.candidate_matches (not_matches_of_firing? accepted fires candidate)
  · rcases prevails_of_firing? accepted fires with ⟨other, otherPrevails, rfl, rfl⟩
    rw [otherPrevails.unique prevails]

end Firing

section Scanning

variable {rules : List (Rule V)} {table : RuleTable V} (accepted : ofRules rules = .ok table)
  (ignore : List Symbol) (letter : Module V) (cursor : Cursor V) (chance : Chance)

include accepted

/-- What prevails makes the replacement. -/
theorem derive_of_prevails {candidate : Candidate V}
    (prevails : candidate.Prevails rules ignore letter cursor.position) :
    ((table.derive ignore letter cursor chance).outcome,
        (table.derive ignore letter cursor chance).chance) =
      ((candidate.compiled.produce candidate.arguments chance).1.map some,
        (candidate.compiled.produce candidate.arguments chance).2) := by
  rw [derive_eq_firing?, firing?_of_prevails accepted prevails]

/-- A scan comes to what the table derives. -/
theorem derive_of_scan {outcome : Except ConfigurationError (Option (Forest V))} {after : Chance}
    (scan : Scan rules ignore letter cursor.position chance outcome after) :
    (table.derive ignore letter cursor chance).outcome = outcome ∧
      (table.derive ignore letter cursor chance).chance = after := by
  rw [← Prod.mk.injEq]
  cases scan with
  | unmatched fails =>
      rw [derive_eq_firing?]
      rcases fires : table.firing? ignore letter cursor.position with _ | ⟨compiled, arguments⟩
      · rfl
      · rcases prevails_of_firing? accepted fires with ⟨candidate, prevails, -⟩
        exact absurd prevails.candidate_matches (fails candidate)
  | certain candidate prevails only single =>
      rw [derive_of_prevails accepted ignore letter cursor chance prevails,
        prevails.checks.produce_of_single single]
      rfl
  | chosen candidate prevails several production choice =>
      rw [derive_of_prevails accepted ignore letter cursor chance prevails,
        prevails.checks.produce_of_several several, choice]
      rfl
  | inconsistent candidate prevails several choice =>
      rw [derive_of_prevails accepted ignore letter cursor chance prevails,
        prevails.checks.produce_of_several several, choice]
      rfl

/-- A derivation is a scan of the list. -/
theorem derive_iff_scan {outcome : Except ConfigurationError (Option (Forest V))}
    {after : Chance} :
    ((table.derive ignore letter cursor chance).outcome = outcome ∧
        (table.derive ignore letter cursor chance).chance = after) ↔
      Scan rules ignore letter cursor.position chance outcome after := by
  refine ⟨?_, derive_of_scan accepted ignore letter cursor chance⟩
  rintro ⟨rfl, rfl⟩
  have scanned : ∃ outcome after,
      Scan rules ignore letter cursor.position chance outcome after := by
    rcases fires : table.firing? ignore letter cursor.position with _ | ⟨compiled, arguments⟩
    · exact ⟨_, _, .unmatched (not_matches_of_firing? accepted fires)⟩
    · rcases prevails_of_firing? accepted fires with ⟨candidate, prevails, -⟩
      exact prevails.exists_scan chance
  rcases scanned with ⟨outcome, after, scan⟩
  rcases derive_of_scan accepted ignore letter cursor chance scan with ⟨sameOutcome, sameAfter⟩
  rw [sameOutcome, sameAfter]
  exact scan

end Scanning
end RuleTable

/-! ## Reordering a list -/

/-- Two lists of the same rules, in which rules of the same signature and the same
rank stand in the same order. -/
structure Reordering (first second : List (Rule V)) where
  moved : Fin first.length ≃ Fin second.length
  keeps : ∀ position, second.get (moved position) = first.get position
  keepsOrder : ∀ earlier later, earlier < later →
    (first.get earlier).signature? = (first.get later).signature? →
    (first.get earlier).rank = (first.get later).rank → moved earlier < moved later

/-- The same outcome, the number of the rule in a complaint apart. -/
inductive SameButNumber {α : Type} :
    Except ConfigurationError α → Except ConfigurationError α → Prop where
  | same (outcome : Except ConfigurationError α) : SameButNumber outcome outcome
  | inconsistent (first second : Nat) (draw : Float) :
      SameButNumber (.error (.inconsistentThresholds first draw))
        (.error (.inconsistentThresholds second draw))

namespace Reordering

variable {first second : List (Rule V)}

/-- The way back. -/
def symm (reordering : Reordering first second) : Reordering second first where
  moved := reordering.moved.symm
  keeps position := by
    rw [← reordering.keeps, Equiv.apply_symm_apply]
  keepsOrder earlier later less signature rank := by
    rcases Nat.lt_trichotomy (reordering.moved.symm earlier) (reordering.moved.symm later) with
      kept | same | swapped
    · exact kept
    · rw [reordering.moved.symm.injective (Fin.ext same)] at less
      exact absurd less (Nat.lt_irrefl later)
    · have back := reordering.keepsOrder _ _ swapped
      rw [← reordering.keeps, ← reordering.keeps, Equiv.apply_symm_apply,
        Equiv.apply_symm_apply] at back
      exact absurd (back signature.symm rank.symm) (Nat.lt_asymm less)

end Reordering

namespace Candidate

/-- The same candidate under another number. -/
def renumber (index : Nat) (candidate : Candidate V) : Candidate V :=
  { candidate with index := index, compiled := candidate.compiled.renumber index }

variable {first second : List (Rule V)} {ignore : List Symbol} {letter : Module V}
  {place : Place V} {candidate : Candidate V}

theorem Matches.signature_eq (fits : candidate.Matches first ignore letter place) :
    candidate.rule.signature? = some letter.signature := by
  rw [(CompiledRule.compile_eq_ok fits.checked).signature_eq,
    CompiledRule.strict_of_matchAt fits.matched]

/-- What matches in a list matches where the rule stands in the other one. -/
theorem Matches.move (reordering : Reordering first second)
    (fits : candidate.Matches first ignore letter place) :
    ∃ position : Fin first.length, position = candidate.index ∧
      first.get position = candidate.rule ∧
      (candidate.renumber (reordering.moved position)).Matches second ignore letter place := by
  rcases List.getElem?_eq_some_iff.mp fits.declared with ⟨inside, declared⟩
  refine ⟨⟨candidate.index, inside⟩, rfl, declared, ?_, ?_, fits.matched⟩
  · exact List.getElem?_eq_some_iff.mpr
      ⟨_, (reordering.keeps ⟨candidate.index, inside⟩).trans declared⟩
  · exact ((CompiledRule.compile_eq_ok fits.checked).renumber _).compile_eq

/-- What prevails in a list prevails in the other one. -/
theorem Prevails.move (reordering : Reordering first second)
    (prevails : candidate.Prevails first ignore letter place) :
    ∃ index, (candidate.renumber index).Prevails second ignore letter place := by
  rcases prevails.candidate_matches.move reordering with ⟨here, index, rule, fits⟩
  refine ⟨reordering.moved here, fits, ?_⟩
  intro rival rivalFits
  -- The rival stands in the first list as well, and there the candidate outranks it.
  rcases rivalFits.move reordering.symm with ⟨there, rivalIndex, rivalRule, back⟩
  rcases prevails.outranks _ back with higher | ⟨sameRank, notBehind⟩
  · exact .inl higher
  · refine .inr ⟨sameRank, ?_⟩
    have atRival : first.get (reordering.moved.symm there) = rival.rule :=
      (reordering.symm.keeps there).trans rivalRule
    change candidate.index ≤ reordering.moved.symm there at notBehind
    change reordering.moved here ≤ rival.index
    rw [← index] at notBehind
    rcases Nat.lt_or_eq_of_le notBehind with ahead | same
    · -- Both match the module, so they are of one signature and keep their order.
      have kept := reordering.keepsOrder here _ ahead
      rw [rule, atRival, Equiv.apply_symm_apply] at kept
      rw [← rivalIndex]
      refine Nat.le_of_lt (kept ?_ sameRank)
      rw [prevails.candidate_matches.signature_eq, rivalFits.signature_eq]
    · have landed : (reordering.moved here : Nat) = rival.index := by
        rw [Fin.ext same, Equiv.apply_symm_apply, rivalIndex]
      exact Nat.le_of_eq landed

end Candidate

/-- A scan of a list and one of the other list come to the same. -/
theorem Scan.move {first second : List (Rule V)} (reordering : Reordering first second)
    {ignore : List Symbol} {letter : Module V} {place : Place V} {chance after : Chance}
    {outcome : Except ConfigurationError (Option (Forest V))}
    (scan : Scan first ignore letter place chance outcome after) :
    ∃ result, Scan second ignore letter place chance result after ∧
      SameButNumber outcome result := by
  cases scan with
  | unmatched fails =>
      refine ⟨_, .unmatched ?_, .same _⟩
      intro candidate fits
      rcases fits.move reordering.symm with ⟨_, _, _, back⟩
      exact fails _ back
  | certain candidate prevails only single =>
      rcases prevails.move reordering with ⟨index, moved⟩
      exact ⟨_, .certain _ moved only single, .same _⟩
  | chosen candidate prevails several production choice =>
      rcases prevails.move reordering with ⟨index, moved⟩
      exact ⟨_, .chosen _ moved several production choice, .same _⟩
  | inconsistent candidate prevails several choice =>
      rcases prevails.move reordering with ⟨index, moved⟩
      exact ⟨_, .inconsistent _ moved several choice, .inconsistent _ _ _⟩

/-- A list can be used if it can be used in another order. -/
theorem RuleTable.exists_ofRules {first second : List (Rule V)} {table : RuleTable V}
    (accepted : ofRules first = .ok table) (reordering : Reordering first second) :
    ∃ reordered, ofRules second = .ok reordered := by
  rcases files_ofRules accepted with ⟨all, checked, -⟩
  have acceptable : ∀ rule ∈ second, ∃ index compiled, CompiledRule.Checks index rule compiled := by
    intro rule member
    rcases List.mem_iff_get.mp member with ⟨position, rfl⟩
    rw [← reordering.symm.keeps position]
    exact checks_of_mem checked _ (List.get_mem _ _)
  rcases exists_compileFrom acceptable 0 with ⟨compiled, checkedSecond⟩
  refine ⟨compiled.foldl file empty, ?_⟩
  rw [ofRules, checkedSecond]
  rfl

/-- What a table derives is what comes of trying all rules of the list, and the
order of the list does not show as long as rules of the same signature and the
same rank keep theirs. -/
theorem derive_iff_scan_ofRules {rules : List (Rule V)} {table : RuleTable V}
    (accepted : RuleTable.ofRules rules = .ok table) :
    (∀ (ignore : List Symbol) (letter : Module V) (cursor : Cursor V) (chance : Chance)
        (outcome : Except ConfigurationError (Option (Forest V))) (after : Chance),
      ((table.derive ignore letter cursor chance).outcome = outcome ∧
          (table.derive ignore letter cursor chance).chance = after) ↔
        Scan rules ignore letter cursor.position chance outcome after) ∧
      ∀ (others : List (Rule V)) (_ : Reordering rules others),
        ∃ reordered, RuleTable.ofRules others = .ok reordered ∧
          ∀ (ignore : List Symbol) (letter : Module V) (cursor : Cursor V) (chance : Chance),
            SameButNumber (table.derive ignore letter cursor chance).outcome
                (reordered.derive ignore letter cursor chance).outcome ∧
              (reordered.derive ignore letter cursor chance).chance =
                (table.derive ignore letter cursor chance).chance := by
  refine ⟨fun ignore letter cursor chance _ _ =>
    RuleTable.derive_iff_scan accepted ignore letter cursor chance, ?_⟩
  intro others reordering
  rcases RuleTable.exists_ofRules accepted reordering with ⟨reordered, acceptedOthers⟩
  refine ⟨reordered, acceptedOthers, ?_⟩
  intro ignore letter cursor chance
  have scan := (RuleTable.derive_iff_scan accepted ignore letter cursor chance).mp ⟨rfl, rfl⟩
  rcases scan.move reordering with ⟨result, moved, same⟩
  rcases RuleTable.derive_of_scan acceptedOthers ignore letter cursor chance moved with
    ⟨outcome, after⟩
  rw [outcome]
  exact ⟨same, after⟩

namespace Growth

/-- Replaces every segment. -/
def anywhere : Rule Float := .certain [Catalog.strict "F" 0] fun _ => [Catalog.stem, Catalog.stem]

/-- Replaces a segment that hangs off another one. -/
def aloft : Rule Float :=
  .certain [Catalog.strict "F" 0, .toward ⟨"F"⟩ 0 "]"] fun _ => [Catalog.stem]

/-- A segment that hangs off another one. -/
def shoot : Cursor Float :=
  .on ⟨⟨[], some Catalog.stem, []⟩, [⟨[Catalog.stem], some (.branch [Catalog.stem]), []⟩]⟩

/-- The two rules differ in rank, so their order is of no account. -/
def swapped : Reordering [anywhere, aloft] [aloft, anywhere] where
  moved := ⟨Fin.rev, Fin.rev, Fin.rev_rev, Fin.rev_rev⟩
  keeps := fun position =>
    match position with
    | 0 => rfl
    | 1 => rfl
  keepsOrder := by decide

/-- Both orders of the rules scan and derive alike at the shoot. -/
theorem scan_derive_shoot :
    ∃ table reordered, RuleTable.ofRules [anywhere, aloft] = .ok table ∧
      RuleTable.ofRules [aloft, anywhere] = .ok reordered ∧
      Scan [anywhere, aloft] [] (.plain ⟨"F"⟩) shoot.position (.scripted [])
        (table.derive [] (.plain ⟨"F"⟩) shoot (.scripted [])).outcome
        (table.derive [] (.plain ⟨"F"⟩) shoot (.scripted [])).chance ∧
      SameButNumber (table.derive [] (.plain ⟨"F"⟩) shoot (.scripted [])).outcome
        (reordered.derive [] (.plain ⟨"F"⟩) shoot (.scripted [])).outcome := by
  have acceptable : (RuleTable.ofRules [anywhere, aloft]).isOk = true := by decide
  rcases accepted : RuleTable.ofRules [anywhere, aloft] with error | table
  · rw [accepted] at acceptable
    cases acceptable
  · have both := derive_iff_scan_ofRules accepted
    rcases both.2 _ swapped with ⟨reordered, acceptedOthers, alike⟩
    exact ⟨table, reordered, rfl, acceptedOthers, (both.1 _ _ _ _ _ _).mp ⟨rfl, rfl⟩,
      (alike _ _ _ _).1⟩

end Growth
end LSystem
