import LSystem.Development.Basic
import LSystem.Proofs.Rule.Filing

namespace LSystem

/-!
# Validation

A list of rules can be full of faults.  Here all faults of a rule are listed, in
the order in which a reader meets them, without any checking that stops halfway.
Main statement: a list of rules is accepted if and only if none of its rules has
a fault, and otherwise what is reported is the first fault of the first rule that
has one.
-/

variable {V : Type}

/-! ## Tags -/

namespace Direction

/-- The tags of all directions: one of five marks, with or without a point. -/
def tags : List String := ["^", "<", ">", "[", "]", ".^", ".<", ".>", ".[", ".]"]

theorem mem_tags_iff {text : String} : text ∈ tags ↔ ∃ direction, ofTag? text = some direction := by
  simp only [ofTag?_eq_some_iff]
  constructor
  · intro member
    simp only [tags, List.mem_cons, List.not_mem_nil, or_false] at member
    rcases member with rfl | rfl | rfl | rfl | rfl | rfl | rfl | rfl | rfl | rfl
    · exact ⟨⟨.previousSiblingOrParent, false⟩, rfl⟩
    · exact ⟨⟨.previousSibling, false⟩, rfl⟩
    · exact ⟨⟨.nextSibling, false⟩, rfl⟩
    · exact ⟨⟨.child, false⟩, rfl⟩
    · exact ⟨⟨.parent, false⟩, rfl⟩
    · exact ⟨⟨.previousSiblingOrParent, true⟩, rfl⟩
    · exact ⟨⟨.previousSibling, true⟩, rfl⟩
    · exact ⟨⟨.nextSibling, true⟩, rfl⟩
    · exact ⟨⟨.child, true⟩, rfl⟩
    · exact ⟨⟨.parent, true⟩, rfl⟩
  · rintro ⟨⟨axis, fromOrigin⟩, rfl⟩
    cases axis <;> cases fromOrigin <;> decide

end Direction

/-! ## Faults of a rule -/

/-- What is wrong with a predecessor that stands first. -/
def Predecessor.strictFaults (rule : Nat) (predecessor : Predecessor) : List ConfigurationError :=
  match predecessor.direction with
  | none => []
  | some _ => [.directedStrictPredecessor rule predecessor.symbol]

/-- What is wrong with a predecessor that stands at a later position. -/
def Predecessor.contextFaults (rule : Nat) :
    Predecessor × Nat → List ConfigurationError
  | (predecessor, position) =>
      match predecessor.direction with
      | none => [.undirectedContextPredecessor rule position predecessor.symbol]
      | some tag => if tag ∈ Direction.tags then [] else [.invalidDirection rule tag]

/-- What is wrong with a successor.  A number that compares with nothing is no
probability either. -/
def Successor.faults (rule : Nat) (successor : Successor V) : List ConfigurationError :=
  if 0.0 ≤ successor.probability ∧ successor.probability ≤ 1.0 then []
  else [.invalidProbability rule successor.probability]

/-- Adds the probabilities of successors to a sum, from left to right. -/
def Successor.addUp (sum : Float) (successors : List (Successor V)) : Float :=
  successors.foldl (fun sum successor => sum + successor.probability) sum

namespace Rule

/-- The sum of all probabilities. -/
def total (rule : Rule V) : Float := Successor.addUp 0.0 rule.successors

def predecessorFaults (index : Nat) (rule : Rule V) : List ConfigurationError :=
  match rule.predecessors with
  | [] => [.emptyPredecessors index]
  | strict :: context =>
      strict.strictFaults index ++ (context.zipIdx 1).flatMap (Predecessor.contextFaults index)

def successorFaults (index : Nat) (rule : Rule V) : List ConfigurationError :=
  (if rule.successors.isEmpty then [.emptySuccessors index] else []) ++
    rule.successors.flatMap (Successor.faults index) ++
    (if rule.total == 1.0 then [] else [.probabilitySum index rule.total])

/-- All that is wrong with the rule at a position of a list: first with its
predecessors, from left to right, then with its successors, from left to right,
and then with their sum. -/
def faults (index : Nat) (rule : Rule V) : List ConfigurationError :=
  rule.predecessorFaults index ++ rule.successorFaults index

/-- What a rule has to be like. -/
structure Sound (rule : Rule V) : Prop where
  predecessors_ne_nil : rule.predecessors ≠ []
  strict_undirected : ∀ strict, rule.predecessors.head? = some strict → strict.direction = none
  context_directed : ∀ predecessor ∈ rule.predecessors.tail,
    ∃ tag ∈ Direction.tags, predecessor.direction = some tag
  successors_ne_nil : rule.successors ≠ []
  probable : ∀ successor ∈ rule.successors,
    0.0 ≤ successor.probability ∧ successor.probability ≤ 1.0
  sums_up : (rule.total == 1.0) = true

end Rule

/-! ## Reports -/

/-- The error that has been reported, if any. -/
def reported? {ε α : Type} : Except ε α → Option ε
  | .error error => some error
  | .ok _ => none

section Reports

variable {ε α β : Type}

theorem reported?_eq_some_iff {outcome : Except ε α} {error : ε} :
    reported? outcome = some error ↔ outcome = .error error := by
  cases outcome <;> simp [reported?]

theorem reported?_eq_none_iff {outcome : Except ε α} :
    reported? outcome = none ↔ ∃ result, outcome = .ok result := by
  cases outcome <;> simp [reported?]

theorem reported?_map (f : α → β) (outcome : Except ε α) :
    reported? (outcome.map f) = reported? outcome := by
  cases outcome <;> rfl

/-- Of two stages the second one reports only if the first one does not. -/
theorem reported?_bind (outcome : Except ε α) (next : α → Except ε β) {later : Option ε}
    (onward : ∀ result, outcome = .ok result → reported? (next result) = later) :
    reported? (outcome >>= next) = (reported? outcome).or later := by
  cases outcome with
  | error => rfl
  | ok result => exact onward result rfl

end Reports

/-! ## Checking reports the first fault -/

namespace CompiledRule

theorem reported?_readContext (index position : Nat) (predecessors : List Predecessor) :
    reported? (readContext index position predecessors) =
      ((predecessors.zipIdx position).flatMap (Predecessor.contextFaults index)).head? := by
  induction predecessors generalizing position with
  | nil => rfl
  | cons predecessor rest inductionHypothesis =>
      rw [List.zipIdx_cons, List.flatMap_cons, Predecessor.contextFaults, readContext]
      rcases predecessor.direction with _ | tag
      · rfl
      dsimp only
      rcases known : Direction.ofTag? tag with _ | direction
      · rw [if_neg]
        · rfl
        · rw [Direction.mem_tags_iff, known]
          simp
      · rw [if_pos (Direction.mem_tags_iff.mpr ⟨direction, known⟩), List.nil_append,
          ← inductionHypothesis, reported?_map]

theorem reported?_accumulate (index : Nat) (sum : Float) (successors : List (Successor V)) :
    reported? (accumulate index sum successors) =
      (successors.flatMap (Successor.faults index) ++
        if Successor.addUp sum successors == 1.0 then []
        else [ConfigurationError.probabilitySum index (Successor.addUp sum successors)]).head? := by
  induction successors generalizing sum with
  | nil =>
      rw [accumulate, Successor.addUp, List.flatMap_nil, List.nil_append, List.foldl_nil]
      split <;> rfl
  | cons successor rest inductionHypothesis =>
      rw [accumulate, List.flatMap_cons, Successor.faults]
      by_cases probable : 0.0 ≤ successor.probability ∧ successor.probability ≤ 1.0
      · rw [if_pos probable, if_pos probable, List.nil_append]
        exact (reported?_map _ _).trans (inductionHypothesis _)
      · rw [if_neg probable, if_neg probable]
        rfl

/-- What is reported of a rule is the first of its faults. -/
theorem reported?_compile (index : Nat) (rule : Rule V) :
    reported? (compile index rule) = (rule.faults index).head? := by
  rw [compile, Rule.faults, Rule.predecessorFaults]
  rcases rule.predecessors with _ | ⟨strict, context⟩
  · rfl
  dsimp only
  rw [Predecessor.strictFaults]
  rcases strict.direction with _ | tag
  · dsimp only
    rw [Option.isSome_none, if_neg Bool.false_ne_true, List.nil_append, List.head?_append,
      ← reported?_readContext]
    apply reported?_bind
    intro read _
    rw [Rule.successorFaults]
    cases rule.successors.isEmpty with
    | true => rfl
    | false =>
        rw [if_neg Bool.false_ne_true, if_neg Bool.false_ne_true, List.nil_append, Rule.total,
          ← reported?_accumulate, ← Option.or_none (o := reported? (accumulate _ _ _))]
        apply reported?_bind
        intro thresholds _
        rfl
  · rfl

end CompiledRule

/-! ## Sound rules -/

theorem Predecessor.strictFaults_eq_nil_iff {index : Nat} {predecessor : Predecessor} :
    predecessor.strictFaults index = [] ↔ predecessor.direction = none := by
  rw [strictFaults]
  cases predecessor.direction <;> simp

theorem Predecessor.contextFaults_eq_nil_iff {index position : Nat} {predecessor : Predecessor} :
    contextFaults index (predecessor, position) = [] ↔
      ∃ tag ∈ Direction.tags, predecessor.direction = some tag := by
  rw [contextFaults]
  cases predecessor.direction <;> simp

theorem Successor.faults_eq_nil_iff {index : Nat} {successor : Successor V} :
    successor.faults index = [] ↔
      0.0 ≤ successor.probability ∧ successor.probability ≤ 1.0 := by
  rw [faults]
  split <;> simp_all

namespace Rule

variable {index : Nat} {rule : Rule V}

theorem predecessorFaults_eq_nil_iff : rule.predecessorFaults index = [] ↔
    rule.predecessors ≠ [] ∧
    (∀ strict, rule.predecessors.head? = some strict → strict.direction = none) ∧
    ∀ predecessor ∈ rule.predecessors.tail,
      ∃ tag ∈ Direction.tags, predecessor.direction = some tag := by
  rw [predecessorFaults]
  rcases rule.predecessors with _ | ⟨strict, context⟩
  · simp
  · simp only [List.append_eq_nil_iff, Predecessor.strictFaults_eq_nil_iff,
      List.flatMap_eq_nil_iff, Prod.forall, Predecessor.contextFaults_eq_nil_iff, List.head?_cons,
      Option.some.injEq, forall_eq', List.tail_cons, ne_eq, reduceCtorEq, not_false_eq_true,
      true_and]
    refine and_congr_right fun _ => ⟨fun fine predecessor member => ?_, fun fine _ _ member => ?_⟩
    · rw [← List.zipIdx_map_fst 1 context, List.mem_map] at member
      rcases member with ⟨⟨_, position⟩, placed, rfl⟩
      exact fine _ position placed
    · exact fine _ (List.fst_mem_of_mem_zipIdx member)

theorem successorFaults_eq_nil_iff : rule.successorFaults index = [] ↔
    rule.successors ≠ [] ∧
    (∀ successor ∈ rule.successors,
      0.0 ≤ successor.probability ∧ successor.probability ≤ 1.0) ∧
    (rule.total == 1.0) = true := by
  rw [successorFaults]
  simp only [List.append_eq_nil_iff, List.flatMap_eq_nil_iff, Successor.faults_eq_nil_iff,
    ite_eq_right_iff, ite_eq_left_iff, List.cons_ne_nil, imp_false, List.isEmpty_iff,
    Bool.not_eq_true, Bool.not_eq_false, and_assoc, ne_eq]

/-- A rule has no fault if it is as it has to be, wherever it stands. -/
theorem faults_eq_nil_iff : rule.faults index = [] ↔ rule.Sound := by
  rw [faults, List.append_eq_nil_iff, predecessorFaults_eq_nil_iff, successorFaults_eq_nil_iff]
  constructor
  · rintro ⟨⟨some, undirected, directed⟩, several, probable, sums⟩
    exact ⟨some, undirected, directed, several, probable, sums⟩
  · rintro ⟨some, undirected, directed, several, probable, sums⟩
    exact ⟨⟨some, undirected, directed⟩, several, probable, sums⟩

end Rule

namespace RuleTable

/-- What is reported of a list is the first fault of its first faulty rule. -/
theorem reported?_compileFrom (start : Nat) (rules : List (Rule V)) :
    reported? (compileFrom start rules) =
      ((rules.zipIdx start).flatMap fun (rule, index) => rule.faults index).head? := by
  induction rules generalizing start with
  | nil => rfl
  | cons rule rest inductionHypothesis =>
      rw [compileFrom, List.zipIdx_cons, List.flatMap_cons, List.head?_append,
        ← CompiledRule.reported?_compile, ← inductionHypothesis]
      apply reported?_bind
      intro compiled _
      rw [← Option.or_none (o := reported? (compileFrom _ _))]
      apply reported?_bind
      intro following _
      rfl

theorem compileFrom_eq_error_iff {start : Nat} {rules : List (Rule V)}
    {error : ConfigurationError} :
    compileFrom start rules = .error error ↔
      ∃ before rule after, rules = before ++ rule :: after ∧
        (∀ earlier ∈ before, earlier.Sound) ∧
        (rule.faults (start + before.length)).head? = some error := by
  rw [← reported?_eq_some_iff, reported?_compileFrom]
  induction rules generalizing start with
  | nil => simp
  | cons rule rest inductionHypothesis =>
      rw [List.zipIdx_cons, List.flatMap_cons, List.head?_append, Option.or_eq_some_iff,
        inductionHypothesis, List.head?_eq_none_iff, Rule.faults_eq_nil_iff]
      constructor
      · rintro (first | ⟨sound, before, other, after, rfl, earlierSound, first⟩)
        · exact ⟨[], rule, rest, rfl, List.forall_mem_nil _, first⟩
        · refine ⟨rule :: before, other, after, rfl, ?_, ?_⟩
          · exact List.forall_mem_cons.mpr ⟨sound, earlierSound⟩
          · rw [List.length_cons, Nat.add_comm before.length, ← Nat.add_assoc]
            exact first
      · rintro ⟨_ | ⟨_, before⟩, other, after, ⟨⟩, earlierSound, first⟩
        · exact .inl first
        · rw [List.length_cons, Nat.add_comm before.length, ← Nat.add_assoc] at first
          exact .inr ⟨earlierSound _ List.mem_cons_self, before, other, after, rfl,
            fun earlier member => earlierSound earlier (List.mem_cons_of_mem _ member), first⟩

theorem exists_compileFrom_iff {start : Nat} {rules : List (Rule V)} :
    (∃ compiled, compileFrom start rules = .ok compiled) ↔ ∀ rule ∈ rules, rule.Sound := by
  rw [← reported?_eq_none_iff, reported?_compileFrom, List.head?_eq_none_iff,
    List.flatMap_eq_nil_iff]
  simp only [Prod.forall, Rule.faults_eq_nil_iff]
  constructor
  · intro sound rule member
    rw [← List.zipIdx_map_fst start rules, List.mem_map] at member
    rcases member with ⟨⟨_, index⟩, placed, rfl⟩
    exact sound _ index placed
  · intro sound rule index member
    exact sound rule (List.fst_mem_of_mem_zipIdx member)

theorem reported?_ofRules (rules : List (Rule V)) :
    reported? (ofRules rules) = reported? (compileFrom 0 rules) := reported?_map _ _

theorem exists_ofRules_iff {rules : List (Rule V)} :
    (∃ table, ofRules rules = .ok table) ↔ ∀ rule ∈ rules, rule.Sound := by
  rw [← reported?_eq_none_iff, reported?_ofRules, reported?_eq_none_iff, exists_compileFrom_iff]

theorem ofRules_eq_error_iff {rules : List (Rule V)} {error : ConfigurationError} :
    ofRules rules = .error error ↔
      ∃ before rule after, rules = before ++ rule :: after ∧
        (∀ earlier ∈ before, earlier.Sound) ∧
        (rule.faults before.length).head? = some error := by
  rw [← reported?_eq_some_iff, reported?_ofRules, reported?_eq_some_iff, compileFrom_eq_error_iff]
  simp only [Nat.zero_add]

end RuleTable

/-! ## Systems -/

/-- A system refuses an empty start before it looks at the rules. -/
theorem Development.reported?_create {σ : Type} (start : Forest V) (rules : List (Rule V))
    (ignore : List Symbol) (actions : Actions V σ) (host : σ) (chance : Chance) :
    reported? (create start rules ignore actions host chance) =
      if start = [] then some .emptyStart else reported? (RuleTable.ofRules rules) := by
  rw [create]
  cases start with
  | nil => rfl
  | cons => exact reported?_map _ _

/-- A list of rules is accepted if and only if all rules are as they have to be.
Otherwise the first fault of the first rule that is not is reported, with the
position of the rule in the list.  A system refuses an empty start, whatever the
rules are, and fails in all other cases exactly as the rules do. -/
theorem validation_exact {σ : Type} :
    (∀ rules : List (Rule V),
      (∃ table, RuleTable.ofRules rules = .ok table) ↔ ∀ rule ∈ rules, rule.Sound) ∧
    (∀ (rules : List (Rule V)) (error : ConfigurationError),
      RuleTable.ofRules rules = .error error ↔
        ∃ before rule after, rules = before ++ rule :: after ∧
          (∀ earlier ∈ before, earlier.Sound) ∧
          (rule.faults before.length).head? = some error) ∧
    ∀ (start : Forest V) (rules : List (Rule V)) (ignore : List Symbol) (actions : Actions V σ)
        (host : σ) (chance : Chance),
      (∀ error, Development.create start rules ignore actions host chance = .error error ↔
        start = [] ∧ error = .emptyStart ∨
          start ≠ [] ∧ RuleTable.ofRules rules = .error error) ∧
      ((∃ system, Development.create start rules ignore actions host chance = .ok system) ↔
        start ≠ [] ∧ ∃ table, RuleTable.ofRules rules = .ok table) := by
  refine ⟨fun _ => RuleTable.exists_ofRules_iff, fun _ _ => RuleTable.ofRules_eq_error_iff, ?_⟩
  intro start rules ignore actions host chance
  constructor
  · intro error
    rw [← reported?_eq_some_iff, Development.reported?_create, ← reported?_eq_some_iff]
    by_cases empty : start = [] <;> simp [empty, eq_comm]
  · rw [← reported?_eq_none_iff, Development.reported?_create, ← reported?_eq_none_iff]
    by_cases empty : start = [] <;> simp [empty]

end LSystem
