import LSystem.Proofs.Cursor.Renaming
import LSystem.Proofs.Rule.Filing
import LSystem.Rule.Match

namespace LSystem

/-!
# Rules under other names

Rules are renamed in their predecessors and in what their productions make; conditions
and productions see arguments only, so they need not be told.  Compiling renamed rules
ends in the same way, up to the name that a complaint cites.  The table may sort its
buckets differently, but in each bucket there are the same rules in the same order.  Main
statement: a module is derived as before, with the same draws, whatever the names are.
-/

variable {V : Type}

/-! ## Renamed rules -/

def Predecessor.renamed (names : Renaming) (predecessor : Predecessor) : Predecessor :=
  { predecessor with symbol := names.apply predecessor.symbol }

/-- Makes the same replacement under new names. -/
def Production.renamed (names : Renaming) (production : Production V) : Production V :=
  fun arguments => (production arguments).renamed names

def Successor.renamed (names : Renaming) (successor : Successor V) : Successor V :=
  { successor with production := successor.production.renamed names }

def Rule.renamed (names : Renaming) (rule : Rule V) : Rule V :=
  { rule with
    predecessors := rule.predecessors.map (·.renamed names)
    successors := rule.successors.map (·.renamed names) }

/-- The same complaint, which cites the new name of a symbol. -/
def ConfigurationError.renamed (names : Renaming) : ConfigurationError → ConfigurationError
  | .directedStrictPredecessor rule symbol => .directedStrictPredecessor rule (names.apply symbol)
  | .undirectedContextPredecessor rule position symbol =>
      .undirectedContextPredecessor rule position (names.apply symbol)
  | error => error

def ContextPredecessor.renamed (names : Renaming) (predecessor : ContextPredecessor) :
    ContextPredecessor :=
  { predecessor with signature := predecessor.signature.renamed names }

def Threshold.renamed (names : Renaming) (threshold : Threshold V) : Threshold V :=
  { threshold with production := threshold.production.renamed names }

def CompiledRule.renamed (names : Renaming) (rule : CompiledRule V) : CompiledRule V :=
  { rule with
    strict := rule.strict.renamed names
    context := rule.context.map (·.renamed names)
    thresholds := rule.thresholds.map (·.renamed names) }

/-- A table that holds the same rules for every signature, under its new name. -/
def RuleTable.Renames (names : Renaming) (table other : RuleTable V) : Prop :=
  ∀ signature, (other.bucket? (signature.renamed names)).getD [] =
    ((table.bucket? signature).getD []).map (·.renamed names)

section Compiling

variable (names : Renaming)

/-! ## Compiling -/

namespace CompiledRule

theorem readContext_renamed (rule position : Nat) (predecessors : List Predecessor) :
    readContext rule position (predecessors.map (·.renamed names)) =
      ((readContext rule position predecessors).map (·.map (·.renamed names))).mapError
        (·.renamed names) := by
  induction predecessors generalizing position with
  | nil => rfl
  | cons predecessor rest inductionHypothesis =>
      have direction : (predecessor.renamed names).direction = predecessor.direction := rfl
      rw [List.map_cons, readContext, readContext, direction, inductionHypothesis]
      rcases predecessor.direction with _ | tag
      · rfl
      · dsimp only
        rcases Direction.ofTag? tag with _ | direction
        · rfl
        · rcases readContext rule (position + 1) rest with error | context
          · rfl
          · rfl

theorem accumulate_renamed (rule : Nat) (sum : Float) (successors : List (Successor V)) :
    accumulate rule sum (successors.map (·.renamed names)) =
      ((accumulate rule sum successors).map (·.map (·.renamed names))).mapError
        (·.renamed names) := by
  induction successors generalizing sum with
  | nil =>
      rw [List.map_nil, accumulate]
      split
      · rfl
      · rfl
  | cons successor rest inductionHypothesis =>
      have probability : (successor.renamed names).probability = successor.probability := rfl
      rw [List.map_cons, accumulate, accumulate, probability]
      dsimp only
      rw [inductionHypothesis]
      split
      · rcases accumulate rule (sum + successor.probability) rest with error | thresholds
        · rfl
        · rfl
      · rfl

theorem compile_renamed (index : Nat) (rule : Rule V) :
    compile index (rule.renamed names) =
      ((compile index rule).map (·.renamed names)).mapError (·.renamed names) := by
  rcases rule with ⟨predecessors, condition, successors⟩
  rcases predecessors with _ | ⟨⟨symbol, arity, direction⟩, context⟩
  · rfl
  · rcases direction with _ | tag
    · have read := readContext_renamed names index 1 context
      have summed := accumulate_renamed names index 0.0 successors
      simp only [compile, Rule.renamed, List.map_cons, read, summed, List.isEmpty_map]
      rcases readContext index 1 context with error | read
      · rfl
      · rcases successors with _ | ⟨first, rest⟩
        · rfl
        · rcases accumulate index 0.0 (first :: rest) with error | thresholds
          · rfl
          · rfl
    · rfl

end CompiledRule

namespace RuleTable

theorem compileFrom_renamed (index : Nat) (rules : List (Rule V)) :
    compileFrom index (rules.map (·.renamed names)) =
      ((compileFrom index rules).map (·.map (·.renamed names))).mapError (·.renamed names) := by
  induction rules generalizing index with
  | nil => rfl
  | cons rule rest inductionHypothesis =>
      simp only [List.map_cons, compileFrom, CompiledRule.compile_renamed, inductionHypothesis]
      rcases CompiledRule.compile index rule with error | compiled
      · rfl
      · rcases compileFrom (index + 1) rest with error | following
        · rfl
        · rfl

end RuleTable

/-! ## Filing -/

namespace Bucket

theorem insertRanked_renamed (rule : CompiledRule V) (filed : List (CompiledRule V)) :
    insertRanked (rule.renamed names) (filed.map (·.renamed names)) =
      (insertRanked rule filed).map (·.renamed names) := by
  have rank (other : CompiledRule V) : (other.renamed names).rank = other.rank := by
    rw [CompiledRule.rank, CompiledRule.rank, CompiledRule.predecessorCount,
      CompiledRule.predecessorCount, CompiledRule.renamed, List.length_map]
  induction filed with
  | nil => rfl
  | cons first rest inductionHypothesis =>
      rw [List.map_cons, insertRanked, insertRanked, rank, rank, inductionHypothesis]
      split
      · rfl
      · rfl

theorem insertAll_renamed (filed rules : List (CompiledRule V)) :
    insertAll (filed.map (·.renamed names)) (rules.map (·.renamed names)) =
      (insertAll filed rules).map (·.renamed names) := by
  induction rules generalizing filed with
  | nil => rfl
  | cons rule rest inductionHypothesis =>
      have inserted := inductionHypothesis (insertRanked rule filed)
      rw [← insertRanked_renamed] at inserted
      exact inserted

end Bucket

namespace RuleTable

theorem renames_foldl_file (compiled : List (CompiledRule V)) :
    Renames names (compiled.foldl file empty)
      ((compiled.map (·.renamed names)).foldl file empty) := by
  intro signature
  have nothing (other : Signature) : ((empty : RuleTable V).bucket? other).getD [] = [] := rfl
  have filtered : (compiled.map (·.renamed names)).filter
        (fun rule => rule.strict = signature.renamed names) =
      (compiled.filter fun rule => rule.strict = signature).map (·.renamed names) := by
    rw [List.filter_map]
    congr 1
    apply List.filter_congr
    intro rule _
    rw [Function.comp_apply, decide_eq_decide]
    exact Signature.renamed_eq_iff names rule.strict signature
  rw [bucket?_foldl_file ordered_empty, bucket?_foldl_file ordered_empty, nothing, nothing,
    filtered]
  exact Bucket.insertAll_renamed names [] _

/-- Renamed rules are refused with the same complaint, or fill a table alike. -/
theorem ofRules_renamed (rules : List (Rule V)) :
    match ofRules rules with
    | .error error => ofRules (rules.map (·.renamed names)) = .error (error.renamed names)
    | .ok table => ∃ other, ofRules (rules.map (·.renamed names)) = .ok other ∧
        Renames names table other := by
  rw [ofRules, ofRules, compileFrom_renamed]
  rcases compileFrom 0 rules with error | compiled
  · rfl
  · exact ⟨_, rfl, renames_foldl_file names compiled⟩

end RuleTable
end Compiling

/-! ## Matching -/

section Matching

variable (names : Renaming) (ignore : List Symbol)

namespace CompiledRule

theorem follow_renamed (context : List ContextPredecessor) (cursor : Cursor V) :
    follow (ignore.map names.apply) (context.map (·.renamed names)) (cursor.renamed names) =
      ((follow ignore context cursor).1, (follow ignore context cursor).2.renamed names) := by
  induction context generalizing cursor with
  | nil => rfl
  | cons predecessor rest inductionHypothesis =>
      have direction : (predecessor.renamed names).direction = predecessor.direction := rfl
      have signature : (predecessor.renamed names).signature =
          predecessor.signature.renamed names := rfl
      rw [List.map_cons, follow, follow, direction, signature, Cursor.navigate_renamed]
      rcases cursor.navigate ignore predecessor.direction with ⟨found, moved⟩
      rcases found with _ | letter
      · rfl
      · simp only [Option.map_some, Module.signature_renamed, Signature.renamed_eq_iff,
          inductionHypothesis]
        split
        · rfl
        · rfl

/-- A rule matches under new names where it has matched before, with the same arguments. -/
theorem matchAt_renamed (rule : CompiledRule V) (letter : Module V) (cursor : Cursor V) :
    (rule.renamed names).matchAt (ignore.map names.apply) (letter.renamed names)
        (cursor.renamed names) =
      ((rule.matchAt ignore letter cursor).1,
        (rule.matchAt ignore letter cursor).2.renamed names) := by
  have reset : (cursor.renamed names).resetContext = cursor.resetContext.renamed names := rfl
  simp only [matchAt, renamed, Module.signature_renamed, Signature.renamed_eq_iff, reset,
    follow_renamed]
  split
  · rfl
  · rfl

/-- The draw is the same, and so is the number of the successor that it chooses. -/
theorem produce_renamed (rule : CompiledRule V) (arguments : List V) (chance : Chance) :
    (rule.renamed names).produce arguments chance =
      ((rule.produce arguments chance).1.map (·.renamed names),
        (rule.produce arguments chance).2) := by
  have chosen (thresholds : List (Threshold V)) (draw : Float) :
      (thresholds.map (·.renamed names)).find? (fun threshold => draw < threshold.cumulative) =
        (thresholds.find? fun threshold => draw < threshold.cumulative).map
          (·.renamed names) := by
    rw [List.find?_map]
    rfl
  rcases rule with ⟨index, strict, context, condition, thresholds⟩
  rcases thresholds with _ | ⟨only, _ | ⟨second, rest⟩⟩
  · rfl
  · rfl
  · have found := chosen (only :: second :: rest) chance.draw.1
    simp only [produce, renamed, List.map_cons] at found ⊢
    rw [found]
    generalize (only :: second :: rest).find? _ = choice
    rcases choice with _ | threshold
    · rfl
    · rfl

end CompiledRule

/-- A replacement under new names, with the same draws made for it. -/
def Derivation.renamed (names : Renaming) (derivation : Derivation V) : Derivation V :=
  ⟨derivation.outcome.map (·.map (·.renamed names)), derivation.cursor.renamed names,
    derivation.chance⟩

namespace RuleTable

theorem tryRules_renamed (letter : Module V) (cursor : Cursor V) (chance : Chance)
    (rules : List (CompiledRule V)) :
    tryRules (ignore.map names.apply) (letter.renamed names) (cursor.renamed names) chance
        (rules.map (·.renamed names)) =
      (tryRules ignore letter cursor chance rules).renamed names := by
  induction rules generalizing cursor with
  | nil => rfl
  | cons rule rest inductionHypothesis =>
      simp only [List.map_cons, tryRules, CompiledRule.matchAt_renamed]
      rcases rule.matchAt ignore letter cursor with ⟨matched, moved⟩
      rcases matched with _ | arguments
      · exact inductionHypothesis moved
      · simp only [CompiledRule.produce_renamed, Derivation.renamed]
        rcases (rule.produce arguments chance).1 with error | replacement
        · rfl
        · rfl

/-- Under new names a module is derived as it was. -/
theorem Renames.derive {names : Renaming} {table other : RuleTable V}
    (renames : table.Renames names other) (letter : Module V) (cursor : Cursor V)
    (chance : Chance) :
    other.derive (ignore.map names.apply) (letter.renamed names) (cursor.renamed names) chance =
      (table.derive ignore letter cursor chance).renamed names := by
  rw [RuleTable.derive, Module.signature_renamed, renames, tryRules_renamed]
  rfl

end RuleTable
end Matching
end LSystem
