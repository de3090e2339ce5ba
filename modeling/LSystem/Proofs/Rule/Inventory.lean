import LSystem.Proofs.Rule.Selection
import LSystem.Proofs.Text.Bytes
import Mathlib.Data.List.Induction
import Mathlib.Data.List.Sort

namespace LSystem

/-!
# Inventory

A table is made from a list of rules by filing one rule after the other.  Nothing
gets lost on the way: every rule stands in the table once, under the signature of
its first predecessor, and the listing of the table tells each rule as it was
declared.

The buckets of a table are kept in order.  One could as well collect the rules in
a hash map, sort the rules of each signature by rank and the listing by signature
in the end.  Main statement: whatever the hash function and whatever the order in
which the map gives its entries, that comes to the same table.
-/

variable {V : Type}

/-! ## Filing loses nothing -/

namespace RuleTable

/-- All rules of a table, bucket by bucket. -/
def allRules (table : RuleTable V) : List (CompiledRule V) := table.buckets.flatMap (·.rules)

theorem perm_allRules_file (table : RuleTable V) (rule : CompiledRule V) :
    (table.file rule).allRules.Perm (rule :: table.allRules) := by
  rcases table with ⟨buckets⟩
  unfold allRules file
  dsimp only
  induction buckets with
  | nil => exact .refl _
  | cons first rest inductionHypothesis =>
      unfold fileInto
      split
      · exact (Bucket.perm_insertRanked rule first.rules).append_right _
      · split
        · exact .refl _
        · rw [List.flatMap_cons, List.flatMap_cons]
          exact (inductionHypothesis.append_left first.rules).trans List.perm_middle

theorem perm_allRules_foldl_file (table : RuleTable V) (rules : List (CompiledRule V)) :
    (rules.foldl file table).allRules.Perm (rules ++ table.allRules) := by
  induction rules generalizing table with
  | nil => exact .refl _
  | cons rule rest inductionHypothesis =>
      have filed := (table.perm_allRules_file rule).append_left rest
      exact (inductionHypothesis (table.file rule)).trans (filed.trans List.perm_middle)

theorem Ordered.foldl_file {table : RuleTable V} (ordered : table.Ordered)
    (rules : List (CompiledRule V)) : (rules.foldl RuleTable.file table).Ordered := by
  induction rules generalizing table with
  | nil => exact ordered
  | cons rule rest inductionHypothesis => exact inductionHypothesis (ordered.file rule)

/-- A bucket is opened for a rule, so none is ever empty. -/
def Stocked (table : RuleTable V) : Prop := ∀ bucket ∈ table.buckets, bucket.rules ≠ []

theorem stocked_empty : (empty : RuleTable V).Stocked := fun _ member => nomatch member

theorem Stocked.file {table : RuleTable V} (stocked : table.Stocked) (rule : CompiledRule V) :
    (table.file rule).Stocked := by
  rcases table with ⟨buckets⟩
  unfold Stocked RuleTable.file at *
  dsimp only at stocked ⊢
  induction buckets with
  | nil =>
      intro bucket member
      rw [List.mem_singleton.mp member]
      exact List.cons_ne_nil _ _
  | cons first rest inductionHypothesis =>
      have stockedRest : ∀ bucket ∈ rest, bucket.rules ≠ [] :=
        fun bucket member => stocked bucket (List.mem_cons_of_mem _ member)
      unfold fileInto
      split
      · intro bucket member
        rcases List.mem_cons.mp member with rfl | member
        · intro empty
          have filed := Bucket.perm_insertRanked rule first.rules
          rw [show Bucket.insertRanked rule first.rules = [] from empty] at filed
          cases filed.nil_eq
        · exact stockedRest bucket member
      · split
        · intro bucket member
          rcases List.mem_cons.mp member with rfl | member
          · exact List.cons_ne_nil _ _
          · exact stocked bucket member
        · intro bucket member
          rcases List.mem_cons.mp member with rfl | member
          · exact stocked bucket List.mem_cons_self
          · exact inductionHypothesis stockedRest bucket member

theorem Stocked.foldl_file {table : RuleTable V} (stocked : table.Stocked)
    (rules : List (CompiledRule V)) : (rules.foldl RuleTable.file table).Stocked := by
  induction rules generalizing table with
  | nil => exact stocked
  | cons rule rest inductionHypothesis => exact inductionHypothesis (stocked.file rule)

/-- Looking a signature up finds the bucket of that signature. -/
theorem Ordered.bucket?_eq_some_iff {table : RuleTable V} (ordered : table.Ordered)
    {signature : Signature} {filed : List (CompiledRule V)} :
    table.bucket? signature = some filed ↔ ⟨signature, filed⟩ ∈ table.buckets := by
  rcases table with ⟨buckets⟩
  unfold Ordered at ordered
  dsimp only at ordered ⊢
  induction buckets with
  | nil => exact iff_of_false nofun List.not_mem_nil
  | cons first rest inductionHypothesis =>
      rcases List.pairwise_cons.mp ordered with ⟨before, orderedRest⟩
      rw [bucket?_cons, List.mem_cons]
      by_cases here : first.signature = signature
      · rw [if_pos here, Option.some.injEq]
        constructor
        · rintro rfl
          exact .inl (here ▸ rfl)
        · rintro (same | later)
          · exact congrArg Bucket.rules same.symm
          · have less := before _ later
            simp [here] at less
      · rw [if_neg here, inductionHypothesis orderedRest]
        constructor
        · exact .inr
        · rintro (same | later)
          · exact absurd (congrArg Bucket.signature same.symm) here
          · exact later

end RuleTable

theorem Signature.precedes_asymm {first second : Signature}
    (leads : first.precedes second = true) : ¬ second.precedes first = true := by
  intro follows
  have circle := precedes_trans leads follows
  simp at circle

/-! ## Sorting in the end -/

/-- Sorts rules by rank, the higher ones first, and keeps rules of equal rank as
they are. -/
def Bucket.sortRanked (rules : List (CompiledRule V)) : List (CompiledRule V) :=
  rules.mergeSort fun first second => second.rank ≤ first.rank

theorem CompiledRule.Precedes.asymm {first second : CompiledRule V}
    (leads : first.Precedes second) : ¬ second.Precedes first := by
  unfold Precedes at *
  omega

/-- Sorting numbered rules puts each before all that it precedes. -/
theorem Bucket.pairwise_sortRanked {rules : List (CompiledRule V)}
    (numbered : rules.Pairwise fun earlier later => earlier.index < later.index) :
    (sortRanked rules).Pairwise CompiledRule.Precedes := by
  have transitive (first second third : CompiledRule V) (leads : decide (second.rank ≤ first.rank))
      (follows : decide (third.rank ≤ second.rank)) : decide (third.rank ≤ first.rank) := by
    rw [decide_eq_true_eq] at *
    exact Nat.le_trans follows leads
  have total (first second : CompiledRule V) :
      (decide (second.rank ≤ first.rank) || decide (first.rank ≤ second.rank)) = true := by
    rw [Bool.or_eq_true, decide_eq_true_eq, decide_eq_true_eq]
    exact Nat.le_total _ _
  unfold sortRanked
  induction rules with
  | nil =>
      rw [List.mergeSort_nil]
      exact List.Pairwise.nil
  | cons rule rest inductionHypothesis =>
      rcases List.pairwise_cons.mp numbered with ⟨first, numberedRest⟩
      -- The first rule lands behind those of higher rank and before all others.
      rcases List.mergeSort_cons transitive total rule rest with
        ⟨higher, others, sorted, sortedRest, outranked⟩
      have ranked := List.pairwise_mergeSort transitive total (rule :: rest)
      have ordered := inductionHypothesis numberedRest
      rw [sorted, List.pairwise_append, List.pairwise_cons] at ranked
      rw [sortedRest, List.pairwise_append] at ordered
      rw [sorted, List.pairwise_append, List.pairwise_cons]
      have behind (other : CompiledRule V) (member : other ∈ others) : rule.Precedes other := by
        have atMost := of_decide_eq_true (ranked.2.1.1 other member)
        have inRest : other ∈ rest := by
          rw [← List.mem_mergeSort, sortedRest]
          exact List.mem_append_right _ member
        have later := first other inRest
        unfold CompiledRule.Precedes
        omega
      refine ⟨ordered.1, ⟨behind, ordered.2.1⟩, ?_⟩
      intro leading member other landed
      rcases List.mem_cons.mp landed with rfl | landed
      · have above := outranked leading member
        rw [Bool.not_eq_true', decide_eq_false_iff_not, Nat.not_le] at above
        exact .inl above
      · exact ordered.2.2 leading member other landed

/-- Sorting in the end comes to the same as inserting each rule in its place. -/
theorem Bucket.insertAll_eq_sortRanked {rules : List (CompiledRule V)}
    (numbered : rules.Pairwise fun earlier later => earlier.index < later.index) :
    insertAll [] rules = sortRanked rules := by
  refine List.Perm.eq_of_pairwise (fun _ _ _ _ leads follows => absurd follows leads.asymm)
    (pairwise_insertAll List.Pairwise.nil numbered nofun) (pairwise_sortRanked numbered) ?_
  have inserted := perm_insertAll [] rules
  rw [List.append_nil] at inserted
  exact inserted.trans (List.mergeSort_perm rules _).symm

/-! ## Hash maps -/

namespace RuleTable

section Hashing

variable (hash : Hashable Signature)

/-- Collects rules by signature in a hash map.  Each rule goes behind those of its
signature that have been declared before it. -/
def collect (rules : List (CompiledRule V)) : Std.HashMap Signature (List (CompiledRule V)) :=
  rules.foldl (fun map rule => map.alter rule.strict fun filed => some (filed.getD [] ++ [rule])) ∅

/-- The rules of each signature in a hash map, sorted by rank in the end. -/
def hashed (rules : List (CompiledRule V)) : Std.HashMap Signature (List (CompiledRule V)) :=
  (collect hash rules).map fun _ filed => Bucket.sortRanked filed

/-- The entries of a hash map as buckets, in the order in which they are given. -/
def ofEntries (entries : List (Signature × List (CompiledRule V))) : RuleTable V :=
  ⟨entries.map fun entry => ⟨entry.1, entry.2⟩⟩

/-- The rules of a signature are collected in the order of their declaration. -/
theorem getElem?_collect (rules : List (CompiledRule V)) (signature : Signature) :
    (collect hash rules)[signature]? =
      if (rules.filter fun rule => rule.strict = signature) = [] then none
      else some (rules.filter fun rule => rule.strict = signature) := by
  have getD (filed : List (CompiledRule V)) :
      (if filed = [] then none else some filed).getD [] = filed := by
    split
    · next empty => exact empty.symm
    · rfl
  induction rules using List.reverseRecOn with
  | nil => exact Std.HashMap.getElem?_empty
  | append_singleton earlier rule inductionHypothesis =>
      unfold collect at inductionHypothesis ⊢
      rw [List.foldl_append, List.foldl_cons, List.foldl_nil, Std.HashMap.getElem?_alter,
        List.filter_append]
      by_cases same : rule.strict = signature
      · rw [if_pos (beq_iff_eq.mpr same), same, inductionHypothesis, getD,
          List.filter_singleton, decide_eq_true same, cond_true, if_neg]
        exact List.append_ne_nil_of_right_ne_nil _ (List.cons_ne_nil _ _)
      · rw [if_neg (mt beq_iff_eq.mp same), inductionHypothesis, List.filter_singleton,
          decide_eq_false same, cond_false, List.append_nil]

/-- The bucket of a signature holds the rules of the signature sorted by rank. -/
theorem bucket?_foldl_file_empty {rules : List (CompiledRule V)}
    (numbered : rules.Pairwise fun earlier later => earlier.index < later.index)
    (signature : Signature) :
    (rules.foldl file empty).bucket? signature =
      if (rules.filter fun rule => rule.strict = signature) = [] then none
      else some (Bucket.sortRanked (rules.filter fun rule => rule.strict = signature)) := by
  have held := bucket?_foldl_file ordered_empty rules signature
  have nothing : ((empty : RuleTable V).bucket? signature).getD [] = [] := rfl
  rw [nothing, Bucket.insertAll_eq_sortRanked (numbered.filter _)] at held
  have sorted := List.mergeSort_perm (rules.filter fun rule => rule.strict = signature)
    fun first second => second.rank ≤ first.rank
  rcases found : (rules.foldl file empty).bucket? signature with _ | filed
  · rw [found, Option.getD_none] at held
    rw [← Bucket.sortRanked, ← held] at sorted
    rw [if_pos sorted.nil_eq.symm]
  · rw [found, Option.getD_some] at held
    have ordered := ordered_empty.foldl_file rules
    have stocked := (stocked_empty.foldl_file rules) _ (ordered.bucket?_eq_some_iff.mp found)
    rw [held, if_neg]
    intro empty
    rw [empty, Bucket.sortRanked, List.mergeSort_nil] at held
    exact stocked held

/-- A hash map holds for each signature what the table holds. -/
theorem getElem?_hashed {rules : List (CompiledRule V)}
    (numbered : rules.Pairwise fun earlier later => earlier.index < later.index)
    (signature : Signature) :
    (hashed hash rules)[signature]? = (rules.foldl file empty).bucket? signature := by
  rw [hashed, Std.HashMap.getElem?_map, getElem?_collect, bucket?_foldl_file_empty numbered]
  split <;> rfl

/-- The entries of a hash map are the buckets of the table, in some order. -/
theorem perm_toList_hashed {rules : List (CompiledRule V)}
    (numbered : rules.Pairwise fun earlier later => earlier.index < later.index) :
    (ofEntries (hashed hash rules).toList).buckets.Perm (rules.foldl file empty).buckets := by
  have ordered := ordered_empty.foldl_file rules
  have entriesDiffer : (ofEntries (hashed hash rules).toList).buckets.Nodup := by
    refine List.pairwise_map.mpr (Std.HashMap.distinct_keys_toList.imp ?_)
    intro first second different same
    rw [beq_eq_false_iff_ne] at different
    exact different (congrArg Bucket.signature same)
  have bucketsDiffer : (rules.foldl file empty).buckets.Nodup := by
    refine List.Pairwise.imp ?_ ordered
    rintro first second less rfl
    simp at less
  rw [List.perm_ext_iff_of_nodup entriesDiffer bucketsDiffer]
  rintro ⟨signature, filed⟩
  rw [← ordered.bucket?_eq_some_iff, ← getElem?_hashed hash numbered,
    ← Std.HashMap.mem_toList_iff_getElem?_eq_some, ofEntries, List.mem_map]
  constructor
  · rintro ⟨entry, member, same⟩
    cases same
    exact member
  · intro member
    exact ⟨_, member, rfl⟩

end Hashing

/-! ## Listings -/

/-- Sorts a listing by signature in the end. -/
def sortListing (listing : List (Signature × List RuleSummary)) :
    List (Signature × List RuleSummary) :=
  listing.mergeSort fun first second => !second.1.precedes first.1

theorem pairwise_sortListing (listing : List (Signature × List RuleSummary)) :
    (sortListing listing).Pairwise fun first second => ¬ second.1.precedes first.1 = true := by
  have transitive (first second third : Signature × List RuleSummary)
      (leads : !second.1.precedes first.1) (follows : !third.1.precedes second.1) :
      !third.1.precedes first.1 := by
    rw [Bool.not_eq_true', ← Bool.not_eq_true] at *
    intro less
    by_cases same : first.1 = second.1
    · exact follows (same ▸ less)
    · exact follows (Signature.precedes_trans less
        (Signature.precedes_of_not_precedes (Ne.symm same) leads))
  have total (first second : Signature × List RuleSummary) :
      (!second.1.precedes first.1 || !first.1.precedes second.1) = true := by
    rw [Bool.or_eq_true, Bool.not_eq_true', Bool.not_eq_true', ← Bool.not_eq_true,
      ← Bool.not_eq_true]
    by_cases leads : first.1.precedes second.1 = true
    · exact .inl (Signature.precedes_asymm leads)
    · exact .inr leads
  refine (List.pairwise_mergeSort transitive total listing).imp ?_
  intro first second sorted
  rwa [Bool.not_eq_true', ← Bool.not_eq_true] at sorted

theorem Ordered.pairwise_summaries {table : RuleTable V} (ordered : table.Ordered) :
    table.summaries.Pairwise fun earlier later => earlier.1.precedes later.1 = true :=
  List.pairwise_map.mpr ordered

/-- However the buckets are given, the listing sorted in the end is that of the table. -/
theorem Ordered.sortListing_eq {table other : RuleTable V} (ordered : table.Ordered)
    (same : other.buckets.Perm table.buckets) :
    sortListing other.summaries = table.summaries := by
  have moved : (sortListing other.summaries).Perm table.summaries :=
    (List.mergeSort_perm _ _).trans (same.map _)
  have listed := ordered.pairwise_summaries
  have different : table.summaries.Pairwise fun first second => first.1 ≠ second.1 := by
    refine listed.imp ?_
    intro first second less equal
    simp [equal] at less
  have sorted : (sortListing other.summaries).Pairwise
      fun earlier later => earlier.1.precedes later.1 = true := by
    refine ((pairwise_sortListing other.summaries).and
      (moved.symm.pairwise different Ne.symm)).imp ?_
    rintro first second ⟨notAfter, apart⟩
    exact Signature.precedes_of_not_precedes apart.symm notAfter
  exact List.Perm.eq_of_pairwise
    (fun _ _ _ _ leads follows => absurd follows (Signature.precedes_asymm leads))
    sorted listed moved

end RuleTable

/-! ## What a listing tells -/

/-- The traits of a rule as it was declared. -/
def Rule.Has (rule : Rule V) : RuleTrait → Prop
  | .conditional => rule.condition.isSome = true
  | .contextual => 1 < rule.predecessors.length
  | .stochastic => 1 < rule.successors.length

theorem CompiledRule.Checks.mem_traits_iff {index : Nat} {rule : Rule V}
    {compiled : CompiledRule V} (checks : Checks index rule compiled) (trait : RuleTrait) :
    trait ∈ compiled.traits ↔ rule.Has trait := by
  unfold traits
  rw [checks.condition_eq, checks.predecessorCount_eq, checks.length_thresholds,
    List.mem_append, List.mem_append]
  cases trait with
  | conditional => cases conditional : rule.condition.isSome <;> simp [Rule.Has, conditional]
  | contextual => by_cases contextual : 1 < rule.predecessors.length <;> simp [Rule.Has, contextual]
  | stochastic => by_cases stochastic : 1 < rule.successors.length <;> simp [Rule.Has, stochastic]

/-- A summary that tells a filed rule as it stands in the list of declarations. -/
structure RuleSummary.Tells (rules : List (Rule V)) (compiled : CompiledRule V)
    (summary : RuleSummary) : Prop where
  index_eq : summary.index = compiled.index
  declared : ∃ rule, rules[summary.index]? = some rule ∧ summary.rank = rule.rank ∧
    summary.predecessors = rule.predecessors.length ∧
    summary.successors = rule.successors.length ∧
    ∀ trait, trait ∈ summary.traits ↔ rule.Has trait

/-! ## The inventory -/

namespace RuleTable

/-- What it means that a table holds the rules of a list, each of them once and in
its place, and that its listing tells them all. -/
structure Inventories (rules : List (Rule V)) (table : RuleTable V) : Prop where
  /-- Over all buckets the number of each rule occurs once, and no other number. -/
  numbered : (table.allRules.map (·.index)).Perm (List.range rules.length)
  /-- A filed rule is the one declared under its number, with all checks passed, and
  stands in the bucket of its first predecessor. -/
  filed : ∀ bucket ∈ table.buckets, ∀ compiled ∈ bucket.rules,
    ∃ rule, rules[compiled.index]? = some rule ∧
      CompiledRule.compile compiled.index rule = .ok compiled ∧
      rule.signature? = some bucket.signature ∧ compiled.rank = rule.rank
  /-- A signature can be looked up unless no rule has it. -/
  bucket?_eq_none_iff : ∀ signature,
    table.bucket? signature = none ↔ ∀ rule ∈ rules, rule.signature? ≠ some signature
  bucket?_eq_some_iff : ∀ signature filed,
    table.bucket? signature = some filed ↔ ⟨signature, filed⟩ ∈ table.buckets
  /-- In a bucket the higher rank comes first, then the smaller number. -/
  ranked : ∀ bucket ∈ table.buckets, bucket.rules.Pairwise CompiledRule.Precedes
  /-- The listing goes through the buckets and through the rules of each in order. -/
  listed : List.Forall₂
    (fun bucket (entry : Signature × List RuleSummary) =>
      entry.1 = bucket.signature ∧ List.Forall₂ (RuleSummary.Tells rules) bucket.rules entry.2)
    table.buckets table.summaries
  /-- Its signatures rise by the bytes of their symbols, then by arity. -/
  rising : table.summaries.Pairwise fun earlier later =>
    earlier.1.symbol.bytes < later.1.symbol.bytes ∨
      earlier.1.symbol = later.1.symbol ∧ earlier.1.arity < later.1.arity
  /-- A hash map of the same rules holds the same for each signature, and its entries,
  given in any order, make the same listing. -/
  collected : ∃ compiled, compileFrom 0 rules = .ok compiled ∧
    ∀ hash : Hashable Signature,
      (∀ signature : Signature, (hashed hash compiled)[signature]? = table.bucket? signature) ∧
      ∀ entries, entries.Perm (hashed hash compiled).toList →
        sortListing (ofEntries entries).summaries = table.summaries

/-- Rules that pass the checks carry the numbers from zero on. -/
theorem map_index_of_compileFrom {rules : List (Rule V)} {compiled : List (CompiledRule V)}
    (checked : compileFrom 0 rules = .ok compiled) :
    compiled.map (·.index) = List.range rules.length := by
  apply List.ext_getElem?
  intro position
  have same := compileFrom_eq_ok checked position
  rw [List.getElem?_map]
  rcases here : compiled[position]? with _ | rule
  · rw [here, Option.map_none, Option.map_eq_none_iff, List.getElem?_eq_none_iff] at same
    rw [Option.map_none, eq_comm, List.getElem?_eq_none_iff, List.length_range]
    exact same
  · rw [here, Option.map_some] at same
    rcases Option.map_eq_some_iff.mp same with ⟨declared, isDeclared, -⟩
    have inside := (List.getElem?_eq_some_iff.mp isDeclared).1
    rw [Option.map_some, index_of_compileFrom checked here, List.getElem?_range inside,
      Nat.zero_add]

section Accepted

variable {rules : List (Rule V)} {table : RuleTable V} (accepted : ofRules rules = .ok table)

include accepted

theorem ordered_ofRules : table.Ordered := by
  rcases ofRules_eq_ok accepted with ⟨compiled, -, rfl⟩
  exact ordered_empty.foldl_file compiled

theorem stocked_ofRules : table.Stocked := by
  rcases ofRules_eq_ok accepted with ⟨compiled, -, rfl⟩
  exact stocked_empty.foldl_file compiled

/-- What stands in a bucket has been declared. -/
theorem declared_of_mem {bucket : Bucket V} (listed : bucket ∈ table.buckets)
    {compiled : CompiledRule V} (member : compiled ∈ bucket.rules) :
    ∃ rule, rules[compiled.index]? = some rule ∧
      CompiledRule.compile compiled.index rule = .ok compiled ∧
      compiled.strict = bucket.signature := by
  have found := (ordered_ofRules accepted).bucket?_eq_some_iff.mpr listed
  rw [← mem_bucket?_iff accepted, found]
  exact member

/-- A signature has a bucket if some rule has it. -/
theorem bucket?_eq_none_iff_of_ofRules {signature : Signature} :
    table.bucket? signature = none ↔ ∀ rule ∈ rules, rule.signature? ≠ some signature := by
  constructor
  · intro missing rule member own
    rcases List.mem_iff_getElem?.mp member with ⟨position, declared⟩
    rcases ofRules_eq_ok accepted with ⟨all, checked, -⟩
    have same := compileFrom_eq_ok checked position
    rw [declared, Option.map_some, Nat.zero_add] at same
    rcases Option.map_eq_some_iff.mp same.symm with ⟨compiled, -, compiles⟩
    have checks := CompiledRule.compile_eq_ok compiles.symm
    have filed : compiled ∈ (table.bucket? signature).getD [] := by
      rw [mem_bucket?_iff accepted, checks.index_eq]
      exact ⟨rule, declared, compiles.symm,
        Option.some.inj (checks.signature_eq.symm.trans own)⟩
    rw [missing] at filed
    cases filed
  · intro unused
    rcases found : table.bucket? signature with _ | filed
    · rfl
    · have listed := (ordered_ofRules accepted).bucket?_eq_some_iff.mp found
      rcases List.exists_mem_of_ne_nil _ (stocked_ofRules accepted _ listed) with
        ⟨compiled, member⟩
      rcases declared_of_mem accepted listed member with ⟨rule, declared, compiles, strict⟩
      refine absurd ?_ (unused rule (List.mem_of_getElem? declared))
      rw [(CompiledRule.compile_eq_ok compiles).signature_eq, strict]

/-- A summary of a filed rule tells its declaration. -/
theorem tells_of_mem {bucket : Bucket V} (listed : bucket ∈ table.buckets)
    {compiled : CompiledRule V} (member : compiled ∈ bucket.rules) :
    RuleSummary.Tells rules compiled
      ⟨compiled.index, compiled.rank, compiled.predecessorCount, compiled.thresholds.length,
        compiled.traits⟩ := by
  rcases declared_of_mem accepted listed member with ⟨rule, declared, compiles, -⟩
  have checks := CompiledRule.compile_eq_ok compiles
  exact ⟨rfl, rule, declared, checks.rank_eq, checks.predecessorCount_eq,
    checks.length_thresholds, checks.mem_traits_iff⟩

/-- A list of rules that passes the checks makes a table of just these rules. -/
theorem inventories_ofRules : table.Inventories rules where
  numbered := by
    rcases ofRules_eq_ok accepted with ⟨compiled, checked, rfl⟩
    have filed := perm_allRules_foldl_file empty compiled
    have nothing : (empty : RuleTable V).allRules = [] := rfl
    rw [nothing, List.append_nil] at filed
    rw [← map_index_of_compileFrom checked]
    exact filed.map _
  filed bucket listed compiled member := by
    rcases declared_of_mem accepted listed member with ⟨rule, declared, compiles, strict⟩
    have checks := CompiledRule.compile_eq_ok compiles
    exact ⟨rule, declared, compiles, strict ▸ checks.signature_eq, checks.rank_eq⟩
  bucket?_eq_none_iff signature := bucket?_eq_none_iff_of_ofRules accepted
  bucket?_eq_some_iff signature filed := (ordered_ofRules accepted).bucket?_eq_some_iff
  ranked bucket listed := by
    have sorted := pairwise_bucket? accepted bucket.signature
    rwa [(ordered_ofRules accepted).bucket?_eq_some_iff.mpr listed] at sorted
  listed := by
    unfold summaries
    rw [List.forall₂_map_right_iff, List.forall₂_same]
    intro bucket listed
    refine ⟨rfl, ?_⟩
    rw [List.forall₂_map_right_iff, List.forall₂_same]
    intro compiled member
    exact tells_of_mem accepted listed member
  rising := by
    refine (ordered_ofRules accepted).pairwise_summaries.imp ?_
    intro earlier later less
    rcases Signature.precedes_iff.mp less with before | ⟨same, fewer⟩
    · exact .inl (Symbol.bytes_lt_bytes_iff.mpr before)
    · exact .inr ⟨congrArg Symbol.mk same, fewer⟩
  collected := by
    rcases ofRules_eq_ok accepted with ⟨compiled, checked, rfl⟩
    have numbered := numbered_of_compileFrom checked
    refine ⟨compiled, checked, fun hash => ⟨getElem?_hashed hash numbered, ?_⟩⟩
    intro entries given
    apply (ordered_ofRules accepted).sortListing_eq
    exact (given.map _).trans (perm_toList_hashed hash numbered)

end Accepted
end RuleTable

namespace Growth

/-- Rules of several ranks for one signature, declared in no particular order, and one
for another signature of the same symbol. -/
def medley : List (Rule Float) :=
  [anywhere, aloft, anywhere, anywhere.onlyIf fun _ => true,
    .certain [Catalog.strict "F" 1] fun _ => []]

/-- The rule with a condition comes first, then the one with a context, then the
others as declared. -/
theorem medley_inventories :
    ∃ table, RuleTable.ofRules medley = .ok table ∧ table.Inventories medley ∧
      table.summaries.map (fun entry => (entry.1.arity, entry.2.map (·.index))) =
        [(0, [3, 1, 0, 2]), (1, [4])] := by
  have told : (RuleTable.ofRules medley).toOption.map (fun table =>
      table.summaries.map fun entry => (entry.1.arity, entry.2.map (·.index))) =
        some [(0, [3, 1, 0, 2]), (1, [4])] := by decide
  rcases accepted : RuleTable.ofRules medley with error | table
  · rw [accepted] at told
    cases told
  · rw [accepted] at told
    exact ⟨table, rfl, RuleTable.inventories_ofRules accepted, Option.some.inj told⟩

end Growth
end LSystem
