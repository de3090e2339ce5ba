import LSystem.Description.Format
import LSystem.Rule.Table

namespace LSystem

/-!
# Descriptions of rules

How rules, compiled rules, rule tables and configuration errors are described.
-/

open Description

def Symbol.describe (symbol : Symbol) : String := constructed "Symbol" [Text.quote symbol.text]

/-! ## Rules as declared -/

def Predecessor.describe (predecessor : Predecessor) : String :=
  record "Predecessor"
    [("symbol", predecessor.symbol.describe), ("arity", toString predecessor.arity),
      ("direction", optional (predecessor.direction.map Text.quote))]

def Successor.describe {V : Type} (successor : Successor V) : String :=
  record "Successor"
    [("probability", NumberLayout.described.write successor.probability), ("production", function)]

def Rule.describe {V : Type} (rule : Rule V) : String :=
  record "Rule"
    [("predecessors", sequence (rule.predecessors.map (·.describe))),
      ("condition", optional (rule.condition.map fun _ => function)),
      ("successors", sequence (rule.successors.map (·.describe)))]

/-! ## Compiled rules -/

def Axis.describe : Axis → String
  | .previousSiblingOrParent => "PreviousSiblingOrParent"
  | .previousSibling => "PreviousSibling"
  | .nextSibling => "NextSibling"
  | .child => "Child"
  | .parent => "Parent"

def Direction.describe (direction : Direction) : String :=
  record "Direction"
    [("axis", direction.axis.describe), ("from_origin", boolean direction.fromOrigin)]

/-- The strict predecessor is described as one without a direction. -/
def Signature.describePredecessor (signature : Signature) (direction : Option Direction) : String :=
  record "CompiledPredecessor"
    [("symbol", signature.symbol.describe), ("arity", toString signature.arity),
      ("direction", optional (direction.map (·.describe)))]

def RuleTrait.describe : RuleTrait → String
  | .conditional => "CONDITIONAL"
  | .contextual => "CONTEXTUAL"
  | .stochastic => "STOCHASTIC"

/-- A rule without any trait is described by an empty set of bits. -/
def RuleTrait.describeAll (traits : List RuleTrait) : String :=
  constructed "RuleShape"
    [if traits.isEmpty then "0x0" else " | ".intercalate (traits.map (·.describe))]

def CompiledRule.describe {V : Type} (rule : CompiledRule V) : String :=
  let context := rule.context.map fun predecessor =>
    predecessor.signature.describePredecessor (some predecessor.direction)
  record "CompiledRule"
    [("index", toString rule.index),
      ("predecessors", sequence (rule.strict.describePredecessor none :: context)),
      ("condition", optional (rule.condition.map fun _ => function)),
      ("thresholds",
        sequence (rule.thresholds.map fun threshold =>
          NumberLayout.described.write threshold.cumulative)),
      ("shape", RuleTrait.describeAll rule.traits)]

def Signature.describe (signature : Signature) : String :=
  constructed "" [signature.symbol.describe, toString signature.arity]

def RuleTable.describe {V : Type} (rules : RuleTable V) : String :=
  record "RuleTable"
    [("len", toString rules.size),
      ("buckets",
        table (rules.buckets.map fun bucket =>
          (bucket.signature.describe, sequence (bucket.rules.map (·.describe)))))]

/-! ## Configuration errors -/

def ConfigurationError.describe : ConfigurationError → String
  | .emptyPredecessors rule => record "EmptyPredecessors" [("rule", toString rule)]
  | .directedStrictPredecessor rule symbol =>
      record "DirectedStrictPredecessor" [("rule", toString rule), ("symbol", symbol.describe)]
  | .undirectedContextPredecessor rule position symbol =>
      record "UndirectedContextPredecessor"
        [("rule", toString rule), ("position", toString position), ("symbol", symbol.describe)]
  | .invalidDirection rule tag =>
      record "InvalidDirection" [("rule", toString rule), ("direction", Text.quote tag)]
  | .emptySuccessors rule => record "EmptySuccessors" [("rule", toString rule)]
  | .invalidProbability rule probability =>
      record "InvalidProbability"
        [("rule", toString rule), ("probability", NumberLayout.described.write probability)]
  | .probabilitySum rule sum =>
      record "ProbabilitySum"
        [("rule", toString rule), ("sum", NumberLayout.described.write sum)]
  | .inconsistentThresholds rule draw =>
      record "InconsistentThresholds"
        [("rule", toString rule), ("draw", NumberLayout.described.write draw)]
  | .emptyStart => "EmptyAxiom"

end LSystem
