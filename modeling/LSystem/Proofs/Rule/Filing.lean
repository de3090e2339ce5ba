import LSystem.Rule.Table

namespace LSystem

/-!
# Filing

A table is made in two stages.  Every rule is checked by itself, with its number
in the list showing nowhere but in the result and in complaints.  Then the rules
are filed one by one.  Main statement: what a table holds for a signature are the
rules of that signature, those of higher rank first and those of equal rank in
order of declaration.
-/

variable {V : Type}

/-! ## Declared rules -/

namespace Rule

/-- What a rule replaces: the signature of its first predecessor. -/
def signature? (rule : Rule V) : Option Signature := rule.predecessors.head?.map (·.signature)

/-- How specific a rule is.  A condition counts a thousand, a predecessor one. -/
def rank (rule : Rule V) : Nat :=
  1000 * (if rule.condition.isSome then 1 else 0) + rule.predecessors.length

end Rule

/-! ## Checking one rule -/

namespace CompiledRule

/-- What it takes for a rule to pass all checks, and what then becomes of it. -/
structure Checks (index : Nat) (rule : Rule V) (compiled : CompiledRule V) : Prop where
  index_eq : compiled.index = index
  strict : ∃ strict, rule.predecessors.head? = some strict ∧ strict.direction = none ∧
    compiled.strict = strict.signature
  context : readContext index 1 rule.predecessors.tail = .ok compiled.context
  condition_eq : compiled.condition = rule.condition
  successors_ne_nil : rule.successors ≠ []
  thresholds : accumulate index 0.0 rule.successors = .ok compiled.thresholds

theorem compile_eq_ok {index : Nat} {rule : Rule V} {compiled : CompiledRule V}
    (accepted : compile index rule = .ok compiled) : Checks index rule compiled := by
  unfold compile at accepted
  split at accepted
  · cases accepted
  · next strict context predecessors =>
      cases directed : strict.direction.isSome with
      | true =>
          rw [directed] at accepted
          cases accepted
      | false =>
          rw [directed, if_neg Bool.false_ne_true] at accepted
          rcases read : readContext index 1 context with _ | compiledContext
          · rw [read] at accepted
            cases accepted
          rw [read] at accepted
          rcases successors : rule.successors with _ | ⟨successor, rest⟩
          · rw [successors] at accepted
            cases accepted
          rw [successors] at accepted
          rcases summed : accumulate index 0.0 (successor :: rest) with _ | thresholds
          · rw [summed] at accepted
            cases accepted
          rw [summed] at accepted
          cases accepted
          exact {
            index_eq := rfl
            strict := ⟨strict, by rw [predecessors]; rfl, Option.not_isSome_iff_eq_none.mp
              (Bool.eq_false_iff.mp directed), rfl⟩
            context := by rw [predecessors]; exact read
            condition_eq := rfl
            successors_ne_nil := by rw [successors]; exact List.cons_ne_nil _ _
            thresholds := by rw [successors]; exact summed }

theorem Checks.compile_eq {index : Nat} {rule : Rule V} {compiled : CompiledRule V}
    (checks : Checks index rule compiled) : compile index rule = .ok compiled := by
  rcases rule with ⟨_ | ⟨strict, context⟩, condition, successors⟩
  · rcases checks.strict with ⟨strict, impossible, -⟩
    cases impossible
  · rcases compiled with ⟨number, signature, compiledContext, compiledCondition, thresholds⟩
    rcases checks with ⟨rfl, ⟨_, ⟨⟩, undirected, rfl⟩, read, rfl, nonempty, summed⟩
    rw [List.tail_cons] at read
    dsimp only at read summed
    have several : successors.isEmpty = false := List.isEmpty_eq_false_iff.mpr nonempty
    simp only [compile, undirected, Option.isSome_none, read, several, summed, Bool.false_eq_true,
      if_false, Except.bind, bind]

/-! ### One predecessor and one successor -/

/-- Reading goes on past a predecessor if its direction can be read. -/
theorem readContext_cons_eq_ok_iff {number position : Nat} {predecessor : Predecessor}
    {rest : List Predecessor} {context : List ContextPredecessor} :
    readContext number position (predecessor :: rest) = .ok context ↔
      ∃ tag direction following, predecessor.direction = some tag ∧
        Direction.ofTag? tag = some direction ∧
        readContext number (position + 1) rest = .ok following ∧
        context = ⟨predecessor.signature, direction⟩ :: following := by
  constructor
  · intro read
    unfold readContext at read
    split at read
    · cases read
    · next tag directed =>
        split at read
        · cases read
        · next direction known =>
            rcases later : readContext number (position + 1) rest with _ | following
            · rw [later] at read
              cases read
            · rw [later] at read
              cases read
              exact ⟨tag, direction, following, directed, known, rfl, rfl⟩
  · rintro ⟨tag, direction, following, directed, known, later, rfl⟩
    simp only [readContext, directed, known, later, Except.map]

/-- Summing up goes on past a successor if its probability is one. -/
theorem accumulate_cons_eq_ok_iff {number : Nat} {sum : Float} {successor : Successor V}
    {rest : List (Successor V)} {thresholds : List (Threshold V)} :
    accumulate number sum (successor :: rest) = .ok thresholds ↔
      (0.0 ≤ successor.probability ∧ successor.probability ≤ 1.0) ∧
        ∃ following, accumulate number (sum + successor.probability) rest = .ok following ∧
          thresholds = ⟨sum + successor.probability, successor.production⟩ :: following := by
  constructor
  · intro summed
    unfold accumulate at summed
    split at summed
    · next inside =>
        dsimp only at summed
        rcases later : accumulate number (sum + successor.probability) rest with _ | following
        · rw [later] at summed
          cases summed
        · rw [later] at summed
          cases summed
          exact ⟨inside, following, rfl, rfl⟩
    · cases summed
  · rintro ⟨inside, following, later, rfl⟩
    rw [accumulate, if_pos inside]
    simp only [later, Except.map]

/-! ### The number of a rule -/

theorem readContext_eq_ok {number position : Nat} {predecessors : List Predecessor}
    {context : List ContextPredecessor}
    (read : readContext number position predecessors = .ok context) (other : Nat) :
    readContext other position predecessors = .ok context := by
  induction predecessors generalizing position context with
  | nil => exact read
  | cons predecessor rest inductionHypothesis =>
      rcases readContext_cons_eq_ok_iff.mp read with
        ⟨tag, direction, following, directed, known, later, whole⟩
      exact readContext_cons_eq_ok_iff.mpr
        ⟨tag, direction, following, directed, known, inductionHypothesis later, whole⟩

theorem accumulate_eq_ok {number : Nat} {sum : Float} {successors : List (Successor V)}
    {thresholds : List (Threshold V)}
    (summed : accumulate number sum successors = .ok thresholds) (other : Nat) :
    accumulate other sum successors = .ok thresholds := by
  induction successors generalizing sum thresholds with
  | nil =>
      unfold accumulate at summed ⊢
      split at summed
      · next whole =>
          rw [if_pos whole]
          exact summed
      · cases summed
  | cons successor rest inductionHypothesis =>
      rcases accumulate_cons_eq_ok_iff.mp summed with ⟨inside, following, later, whole⟩
      exact accumulate_cons_eq_ok_iff.mpr ⟨inside, following, inductionHypothesis later, whole⟩

/-- The same rule at another position of the list. -/
def renumber (index : Nat) (rule : CompiledRule V) : CompiledRule V := { rule with index := index }

/-- A rule that passes the checks passes them wherever it stands. -/
theorem Checks.renumber {index : Nat} {rule : Rule V} {compiled : CompiledRule V}
    (checks : Checks index rule compiled) (other : Nat) :
    Checks other rule (compiled.renumber other) where
  index_eq := rfl
  strict := checks.strict
  context := readContext_eq_ok checks.context other
  condition_eq := checks.condition_eq
  successors_ne_nil := checks.successors_ne_nil
  thresholds := accumulate_eq_ok checks.thresholds other

/-! ### What shows of a rule after the checks -/

theorem length_of_readContext {number position : Nat} {predecessors : List Predecessor}
    {context : List ContextPredecessor}
    (read : readContext number position predecessors = .ok context) :
    context.length = predecessors.length := by
  induction predecessors generalizing position context with
  | nil =>
      cases read
      rfl
  | cons predecessor rest inductionHypothesis =>
      rcases readContext_cons_eq_ok_iff.mp read with ⟨_, _, following, -, -, later, rfl⟩
      rw [List.length_cons, List.length_cons, inductionHypothesis later]

theorem length_of_accumulate {number : Nat} {sum : Float} {successors : List (Successor V)}
    {thresholds : List (Threshold V)}
    (summed : accumulate number sum successors = .ok thresholds) :
    thresholds.length = successors.length := by
  induction successors generalizing sum thresholds with
  | nil =>
      unfold accumulate at summed
      split at summed <;> cases summed
      rfl
  | cons successor rest inductionHypothesis =>
      rcases accumulate_cons_eq_ok_iff.mp summed with ⟨-, following, later, rfl⟩
      rw [List.length_cons, List.length_cons, inductionHypothesis later]

namespace Checks

variable {index : Nat} {rule : Rule V} {compiled : CompiledRule V}

theorem signature_eq (checks : Checks index rule compiled) :
    rule.signature? = some compiled.strict := by
  rcases checks.strict with ⟨strict, first, -, signature⟩
  rw [Rule.signature?, first, signature, Option.map_some]

/-- All predecessors are kept. -/
theorem predecessorCount_eq (checks : Checks index rule compiled) :
    compiled.predecessorCount = rule.predecessors.length := by
  rcases checks.strict with ⟨strict, first, -, -⟩
  have nonempty : rule.predecessors ≠ [] := by
    intro empty
    rw [empty] at first
    cases first
  have length := List.length_pos_iff.mpr nonempty
  have context := length_of_readContext checks.context
  rw [List.length_tail] at context
  rw [predecessorCount, context]
  omega

theorem rank_eq (checks : Checks index rule compiled) : compiled.rank = rule.rank := by
  rw [rank, Rule.rank, checks.predecessorCount_eq, checks.condition_eq]
  split <;> rfl

theorem length_thresholds (checks : Checks index rule compiled) :
    compiled.thresholds.length = rule.successors.length :=
  length_of_accumulate checks.thresholds

end Checks
end CompiledRule

/-! ## Checking all rules -/

namespace RuleTable

open CompiledRule

/-- Position by position the rules that come out are those that go in, checked. -/
theorem compileFrom_eq_ok {start : Nat} {rules : List (Rule V)} {compiled : List (CompiledRule V)}
    (accepted : compileFrom start rules = .ok compiled) (position : Nat) :
    rules[position]?.map (compile (start + position)) = compiled[position]?.map .ok := by
  induction rules generalizing start compiled position with
  | nil =>
      cases accepted
      rfl
  | cons rule rest inductionHypothesis =>
      unfold compileFrom at accepted
      rcases first : compile start rule with _ | checked
      · rw [first] at accepted
        cases accepted
      rcases later : compileFrom (start + 1) rest with _ | following
      · rw [first, later] at accepted
        cases accepted
      rw [first, later] at accepted
      cases accepted
      cases position with
      | zero => exact congrArg some first
      | succ position =>
          have shifted : start + (position + 1) = start + 1 + position := by omega
          rw [shifted]
          exact inductionHypothesis later position

/-- Every rule of a list that is accepted passes the checks. -/
theorem checks_of_mem {start : Nat} {rules : List (Rule V)} {compiled : List (CompiledRule V)}
    (accepted : compileFrom start rules = .ok compiled) (rule : Rule V) (member : rule ∈ rules) :
    ∃ index checked, Checks index rule checked := by
  rcases List.mem_iff_getElem?.mp member with ⟨position, here⟩
  have checked := compileFrom_eq_ok accepted position
  rw [here, Option.map_some] at checked
  rcases Option.map_eq_some_iff.mp checked.symm with ⟨compiledRule, -, compiles⟩
  exact ⟨start + position, compiledRule, compile_eq_ok compiles.symm⟩

/-- A list is accepted if every rule passes the checks, wherever that may be. -/
theorem exists_compileFrom {rules : List (Rule V)}
    (acceptable : ∀ rule ∈ rules, ∃ index compiled, Checks index rule compiled) (start : Nat) :
    ∃ compiled, compileFrom start rules = .ok compiled := by
  induction rules generalizing start with
  | nil => exact ⟨[], rfl⟩
  | cons rule rest inductionHypothesis =>
      rcases acceptable rule List.mem_cons_self with ⟨index, checked, checks⟩
      have first := (checks.renumber start).compile_eq
      have others : ∀ later ∈ rest, ∃ index compiled, Checks index later compiled :=
        fun later member => acceptable later (List.mem_cons_of_mem _ member)
      rcases inductionHypothesis others (start + 1) with ⟨following, later⟩
      refine ⟨checked.renumber start :: following, ?_⟩
      rw [compileFrom, first, later]
      rfl

/-- Rules are numbered in order of declaration. -/
theorem index_of_compileFrom {start : Nat} {rules : List (Rule V)}
    {compiled : List (CompiledRule V)} (accepted : compileFrom start rules = .ok compiled)
    {position : Nat} {rule : CompiledRule V} (here : compiled[position]? = some rule) :
    rule.index = start + position := by
  have checked := compileFrom_eq_ok accepted position
  rw [here, Option.map_some] at checked
  rcases Option.map_eq_some_iff.mp checked with ⟨declared, -, compiles⟩
  exact (compile_eq_ok compiles).index_eq

/-- The numbers rise along the list. -/
theorem numbered_of_compileFrom {start : Nat} {rules : List (Rule V)}
    {compiled : List (CompiledRule V)} (accepted : compileFrom start rules = .ok compiled) :
    compiled.Pairwise fun earlier later => earlier.index < later.index := by
  rw [List.pairwise_iff_getElem]
  intro earlier later inEarlier inLater less
  rw [index_of_compileFrom accepted (List.getElem?_eq_getElem inEarlier),
    index_of_compileFrom accepted (List.getElem?_eq_getElem inLater)]
  omega

end RuleTable

/-! ## Rules in a bucket -/

/-- The order within a bucket: the higher rank comes first, and at the same rank
the rule that was declared first. -/
def CompiledRule.Precedes (first second : CompiledRule V) : Prop :=
  second.rank < first.rank ∨ first.rank = second.rank ∧ first.index < second.index

namespace Bucket

theorem perm_insertRanked (rule : CompiledRule V) (filed : List (CompiledRule V)) :
    (insertRanked rule filed).Perm (rule :: filed) := by
  induction filed with
  | nil => exact .refl _
  | cons first rest inductionHypothesis =>
      unfold insertRanked
      split
      · exact (inductionHypothesis.cons first).trans (.swap rule first rest)
      · exact .refl _

/-- A rule declared later than all others goes behind those of its own rank. -/
theorem pairwise_insertRanked {rule : CompiledRule V} {filed : List (CompiledRule V)}
    (sorted : filed.Pairwise CompiledRule.Precedes)
    (latest : ∀ earlier ∈ filed, earlier.index < rule.index) :
    (insertRanked rule filed).Pairwise CompiledRule.Precedes := by
  induction filed with
  | nil => exact List.pairwise_singleton _ _
  | cons first rest inductionHypothesis =>
      rcases List.pairwise_cons.mp sorted with ⟨before, sortedRest⟩
      unfold insertRanked
      split
      · next atLeast =>
          refine List.pairwise_cons.mpr ⟨?_, inductionHypothesis sortedRest
            fun earlier member => latest earlier (List.mem_cons_of_mem _ member)⟩
          intro other member
          -- At the same rank the number decides, and the new rule has the largest.
          have filed := (perm_insertRanked rule rest).mem_iff.mp member
          rcases List.mem_cons.mp filed with rfl | member
          · have earlier := latest first List.mem_cons_self
            unfold CompiledRule.Precedes
            omega
          · exact before other member
      · next higher =>
          have leads : CompiledRule.Precedes rule first := .inl (Nat.lt_of_not_le higher)
          refine List.pairwise_cons.mpr ⟨?_, sorted⟩
          intro other member
          rcases List.mem_cons.mp member with rfl | member
          · exact leads
          · have further := before other member
            unfold CompiledRule.Precedes at leads further ⊢
            omega

/-- Files rules one after another behind others. -/
def insertAll (filed rules : List (CompiledRule V)) : List (CompiledRule V) :=
  rules.foldl (fun filed rule => insertRanked rule filed) filed

theorem perm_insertAll (filed rules : List (CompiledRule V)) :
    (insertAll filed rules).Perm (rules ++ filed) := by
  induction rules generalizing filed with
  | nil => exact .refl _
  | cons rule rest inductionHypothesis =>
      have inserted := (perm_insertRanked rule filed).append_left rest
      exact (inductionHypothesis _).trans (inserted.trans List.perm_middle)

theorem pairwise_insertAll {filed rules : List (CompiledRule V)}
    (sorted : filed.Pairwise CompiledRule.Precedes)
    (numbered : rules.Pairwise fun earlier later => earlier.index < later.index)
    (latest : ∀ rule ∈ rules, ∀ earlier ∈ filed, earlier.index < rule.index) :
    (insertAll filed rules).Pairwise CompiledRule.Precedes := by
  induction rules generalizing filed with
  | nil => exact sorted
  | cons rule rest inductionHypothesis =>
      rcases List.pairwise_cons.mp numbered with ⟨before, numberedRest⟩
      refine inductionHypothesis (pairwise_insertRanked sorted (latest rule List.mem_cons_self))
        numberedRest ?_
      intro later member earlier inserted
      rcases List.mem_cons.mp ((perm_insertRanked rule filed).mem_iff.mp inserted) with rfl | old
      · exact before later member
      · exact latest later (List.mem_cons_of_mem _ member) earlier old

end Bucket

/-! ## Buckets in a table -/

namespace Signature

theorem precedes_iff {left right : Signature} :
    left.precedes right = true ↔
      left.symbol.text < right.symbol.text ∨
        left.symbol.text = right.symbol.text ∧ left.arity < right.arity := by
  rcases left with ⟨⟨left⟩, leftArity⟩
  rcases right with ⟨⟨right⟩, rightArity⟩
  simp only [precedes, Bool.or_eq_true, Bool.and_eq_true, decide_eq_true_eq, Symbol.mk.injEq]
  exact Iff.rfl

@[simp]
theorem precedes_irrefl (signature : Signature) : signature.precedes signature = false := by
  rw [Bool.eq_false_iff, ne_eq, precedes_iff]
  rintro (less | ⟨-, less⟩)
  · exact String.lt_irrefl _ less
  · exact Nat.lt_irrefl _ less

theorem precedes_trans {first second third : Signature} (earlier : first.precedes second = true)
    (later : second.precedes third = true) : first.precedes third = true := by
  rw [precedes_iff] at earlier later ⊢
  rcases earlier with less | ⟨same, less⟩
  · rcases later with further | ⟨same, -⟩
    · exact .inl (String.lt_trans less further)
    · exact .inl (same ▸ less)
  · rcases later with further | ⟨sameAgain, further⟩
    · exact .inl (same ▸ further)
    · exact .inr ⟨same.trans sameAgain, Nat.lt_trans less further⟩

/-- Of two different signatures one precedes the other. -/
theorem precedes_of_not_precedes {left right : Signature} (different : left ≠ right)
    (notBefore : ¬ left.precedes right = true) : right.precedes left = true := by
  rw [precedes_iff] at notBefore ⊢
  by_cases same : left.symbol.text = right.symbol.text
  · refine .inr ⟨same.symm, ?_⟩
    rcases Nat.lt_trichotomy left.arity right.arity with less | equal | greater
    · exact absurd (.inr ⟨same, less⟩) notBefore
    · rcases left with ⟨⟨left⟩, leftArity⟩
      rcases right with ⟨⟨right⟩, rightArity⟩
      cases same
      cases equal
      exact absurd rfl different
    · exact greater
  · refine .inl (String.not_le.mp fun atMost => same ?_)
    exact String.le_antisymm atMost (String.not_lt.mp fun less => notBefore (.inl less))

end Signature

namespace RuleTable

/-- The order of the buckets, which no two share. -/
def Ordered (table : RuleTable V) : Prop :=
  table.buckets.Pairwise fun earlier later => earlier.signature.precedes later.signature = true

/-- Filing a rule opens no bucket but that of its signature. -/
theorem mem_fileInto {rule : CompiledRule V} {buckets : List (Bucket V)} {bucket : Bucket V}
    (member : bucket ∈ fileInto rule buckets) :
    bucket.signature = rule.strict ∨ ∃ old ∈ buckets, old.signature = bucket.signature := by
  induction buckets with
  | nil => exact .inl (List.mem_singleton.mp member ▸ rfl)
  | cons first rest inductionHypothesis =>
      unfold fileInto at member
      split at member
      · next same =>
          rcases List.mem_cons.mp member with rfl | member
          · exact .inl same.symm
          · exact .inr ⟨bucket, List.mem_cons_of_mem _ member, rfl⟩
      · split at member
        · rcases List.mem_cons.mp member with rfl | member
          · exact .inl rfl
          · exact .inr ⟨bucket, member, rfl⟩
        · rcases List.mem_cons.mp member with rfl | member
          · exact .inr ⟨bucket, List.mem_cons_self, rfl⟩
          · rcases inductionHypothesis member with same | ⟨old, isOld, same⟩
            · exact .inl same
            · exact .inr ⟨old, List.mem_cons_of_mem _ isOld, same⟩

theorem Ordered.file {table : RuleTable V} (ordered : table.Ordered) (rule : CompiledRule V) :
    (table.file rule).Ordered := by
  rcases table with ⟨buckets⟩
  unfold Ordered RuleTable.file at *
  dsimp only at ordered ⊢
  induction buckets with
  | nil => exact List.pairwise_singleton _ _
  | cons first rest inductionHypothesis =>
      rcases List.pairwise_cons.mp ordered with ⟨before, orderedRest⟩
      unfold fileInto
      split
      · exact List.pairwise_cons.mpr ⟨before, orderedRest⟩
      · next different =>
          split
          · next less =>
              refine List.pairwise_cons.mpr ⟨?_, ordered⟩
              intro later member
              rcases List.mem_cons.mp member with rfl | member
              · exact less
              · exact Signature.precedes_trans less (before later member)
          · next notBefore =>
              have leads := Signature.precedes_of_not_precedes different notBefore
              refine List.pairwise_cons.mpr ⟨?_, inductionHypothesis orderedRest⟩
              intro later member
              rcases mem_fileInto member with same | ⟨old, isOld, same⟩
              · rw [same]
                exact leads
              · rw [← same]
                exact before old isOld

/-- A signature that precedes all others has no bucket. -/
theorem bucket?_eq_none_of_precedes {table : RuleTable V} {signature : Signature}
    (before : ∀ bucket ∈ table.buckets, signature.precedes bucket.signature = true) :
    table.bucket? signature = none := by
  rw [bucket?, Option.map_eq_none_iff, List.find?_eq_none]
  intro bucket member same
  have less := before bucket member
  simp [of_decide_eq_true same] at less

/-- Whether the first bucket is the one that is looked for. -/
theorem bucket?_cons (first : Bucket V) (rest : List (Bucket V)) (signature : Signature) :
    (RuleTable.mk (first :: rest)).bucket? signature =
      if first.signature = signature then some first.rules
      else (RuleTable.mk rest).bucket? signature := by
  by_cases same : first.signature = signature
  · simp only [bucket?, List.find?_cons, same, decide_true, Option.map_some, if_true]
  · simp only [bucket?, List.find?_cons, same, decide_false, if_false]

/-- Filing a rule changes the bucket of its signature and no other. -/
theorem bucket?_file {table : RuleTable V} (ordered : table.Ordered) (rule : CompiledRule V)
    (signature : Signature) :
    (table.file rule).bucket? signature =
      if rule.strict = signature then
        some (Bucket.insertRanked rule ((table.bucket? signature).getD []))
      else table.bucket? signature := by
  rcases table with ⟨buckets⟩
  unfold Ordered at ordered
  unfold file
  dsimp only at ordered ⊢
  induction buckets with
  | nil => exact bucket?_cons ⟨rule.strict, [rule]⟩ [] signature
  | cons first rest inductionHypothesis =>
      rcases List.pairwise_cons.mp ordered with ⟨before, orderedRest⟩
      unfold fileInto
      split
      · next own =>
          rw [bucket?_cons, bucket?_cons, own]
          dsimp only
          split <;> rfl
      · next different =>
          split
          · next less =>
              rw [bucket?_cons]
              dsimp only
              split
              · next same =>
                  -- A bucket of this signature would stand further ahead.
                  have none : (RuleTable.mk (first :: rest)).bucket? signature = none := by
                    refine bucket?_eq_none_of_precedes fun bucket member => ?_
                    rw [← same]
                    rcases List.mem_cons.mp member with rfl | member
                    · exact less
                    · exact Signature.precedes_trans less (before bucket member)
                  rw [none]
                  rfl
              · rfl
          · rw [bucket?_cons, bucket?_cons, inductionHypothesis orderedRest]
            by_cases here : first.signature = signature
            · rw [if_pos here, if_neg (here ▸ different), if_pos here]
            · rw [if_neg here, if_neg here]

/-! ## Filing all rules -/

theorem ordered_empty : (empty : RuleTable V).Ordered := List.Pairwise.nil

/-- What a bucket holds after some rules have been filed: what it held before, and
those of the rules that are of its signature. -/
theorem bucket?_foldl_file {table : RuleTable V} (ordered : table.Ordered)
    (rules : List (CompiledRule V)) (signature : Signature) :
    ((rules.foldl file table).bucket? signature).getD [] =
      Bucket.insertAll ((table.bucket? signature).getD [])
        (rules.filter fun rule => rule.strict = signature) := by
  induction rules generalizing table with
  | nil => rfl
  | cons rule rest inductionHypothesis =>
      rw [List.foldl_cons, inductionHypothesis (ordered.file rule), bucket?_file ordered]
      by_cases same : rule.strict = signature
      · rw [if_pos same, List.filter_cons, if_pos (decide_eq_true same)]
        rfl
      · rw [if_neg same, List.filter_cons, if_neg (by rw [decide_eq_true_eq]; exact same)]

/-- A table holds for each signature the rules of that signature, those that come
first being those that precede the others. -/
structure Files (rules : List (CompiledRule V)) (table : RuleTable V) : Prop where
  mem_iff : ∀ signature rule,
    rule ∈ (table.bucket? signature).getD [] ↔ rule ∈ rules ∧ rule.strict = signature
  pairwise : ∀ signature, ((table.bucket? signature).getD []).Pairwise CompiledRule.Precedes

/-- A list of rules that is accepted is filed in order. -/
theorem ofRules_eq_ok {rules : List (Rule V)} {table : RuleTable V}
    (accepted : ofRules rules = .ok table) :
    ∃ compiled, compileFrom 0 rules = .ok compiled ∧ table = compiled.foldl file empty := by
  unfold ofRules at accepted
  rcases checked : compileFrom 0 rules with _ | compiled
  · rw [checked] at accepted
    cases accepted
  · rw [checked] at accepted
    cases accepted
    exact ⟨compiled, rfl, rfl⟩

theorem files_ofRules {rules : List (Rule V)} {table : RuleTable V}
    (accepted : ofRules rules = .ok table) :
    ∃ compiled, compileFrom 0 rules = .ok compiled ∧ Files compiled table := by
  rcases ofRules_eq_ok accepted with ⟨compiled, checked, rfl⟩
  refine ⟨compiled, checked, ?_, ?_⟩
  · intro signature rule
    have nothing : ((empty : RuleTable V).bucket? signature).getD [] = [] := rfl
    rw [bucket?_foldl_file ordered_empty, (Bucket.perm_insertAll _ _).mem_iff, nothing,
      List.append_nil, List.mem_filter, decide_eq_true_eq]
  · intro signature
    rw [bucket?_foldl_file ordered_empty]
    exact Bucket.pairwise_insertAll List.Pairwise.nil
      ((numbered_of_compileFrom checked).filter _) fun _ _ _ impossible => nomatch impossible

end RuleTable
end LSystem
