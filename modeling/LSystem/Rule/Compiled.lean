import LSystem.Cursor.Direction
import LSystem.Fault.ConfigurationError
import LSystem.Rule.Basic

namespace LSystem

/-!
# Compiled rules

Compiling a rule checks it once and for all.  The directions of its context
predecessors are read, and the probabilities of its successors are turned into
running sums.  The first fault counts: the predecessors come first, from left to
right, then the successors, from left to right, then their sum.
-/

/-- A module to be looked for, and where. -/
structure ContextPredecessor where
  signature : Signature
  direction : Direction

/-- A replacement and the sum of the probabilities up to it. -/
structure Threshold (V : Type) where
  cumulative : Float
  production : Production V

/-- What is special about a rule, for reports. -/
inductive RuleTrait where
  | conditional
  | contextual
  | stochastic
deriving DecidableEq

/-- A checked rule and its position in the list it came from. -/
structure CompiledRule (V : Type) where
  index : Nat
  strict : Signature
  context : List ContextPredecessor
  condition : Option (Condition V)
  thresholds : List (Threshold V)

namespace CompiledRule

variable {V : Type}

/-! ## Checking -/

/-- Reads the directions of context predecessors, the first of which stands at
`position` in the rule. -/
def readContext (rule position : Nat) :
    List Predecessor → Except ConfigurationError (List ContextPredecessor)
  | [] => .ok []
  | predecessor :: rest =>
      match predecessor.direction with
      | none => .error (.undirectedContextPredecessor rule position predecessor.symbol)
      | some tag =>
          match Direction.ofTag? tag with
          | none => .error (.invalidDirection rule tag)
          | some direction =>
              (readContext rule (position + 1) rest).map (⟨predecessor.signature, direction⟩ :: ·)

/-- Sums up probabilities, starting from `sum`.  Each must be one, and all of
them together must make exactly one. -/
def accumulate (rule : Nat) (sum : Float) :
    List (Successor V) → Except ConfigurationError (List (Threshold V))
  | [] => if sum == 1.0 then .ok [] else .error (.probabilitySum rule sum)
  | successor :: rest =>
      if 0.0 ≤ successor.probability ∧ successor.probability ≤ 1.0 then
        let cumulative := sum + successor.probability
        (accumulate rule cumulative rest).map (⟨cumulative, successor.production⟩ :: ·)
      else .error (.invalidProbability rule successor.probability)

/-- Checks the rule at a position of the list. -/
def compile (index : Nat) (rule : Rule V) : Except ConfigurationError (CompiledRule V) :=
  match rule.predecessors with
  | [] => .error (.emptyPredecessors index)
  | strict :: context =>
      if strict.direction.isSome then .error (.directedStrictPredecessor index strict.symbol)
      else do
        let context ← readContext index 1 context
        if rule.successors.isEmpty then .error (.emptySuccessors index)
        else do
          let thresholds ← accumulate index 0.0 rule.successors
          .ok ⟨index, strict.signature, context, rule.condition, thresholds⟩

/-! ## Specificity -/

def predecessorCount (rule : CompiledRule V) : Nat := rule.context.length + 1

/-- How specific a rule is.  A condition outweighs any context in practice. -/
def rank (rule : CompiledRule V) : Nat :=
  (if rule.condition.isSome then 1000 else 0) + rule.predecessorCount

/-- The traits of a rule, always in the same order. -/
def traits (rule : CompiledRule V) : List RuleTrait :=
  (if rule.condition.isSome then [.conditional] else []) ++
    (if 1 < rule.predecessorCount then [.contextual] else []) ++
    (if 1 < rule.thresholds.length then [.stochastic] else [])

end CompiledRule
end LSystem
