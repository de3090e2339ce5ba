import LSystem.Decimal.Layout
import LSystem.Symbol

namespace LSystem

/-!
# Configuration errors

A grammar that cannot be used.  Each error names the rule by its position in
the list that was handed in, and carries what is wrong with it.
-/

/-- What makes a grammar unusable. -/
inductive ConfigurationError where
  | emptyPredecessors (rule : Nat)
  | directedStrictPredecessor (rule : Nat) (symbol : Symbol)
  | undirectedContextPredecessor (rule position : Nat) (symbol : Symbol)
  | invalidDirection (rule : Nat) (tag : String)
  | emptySuccessors (rule : Nat)
  | invalidProbability (rule : Nat) (probability : Float)
  | probabilitySum (rule : Nat) (sum : Float)
  | inconsistentThresholds (rule : Nat) (draw : Float)
  | emptyStart

namespace ConfigurationError

/-- A complaint about one rule. -/
def ofRule (rule : Nat) (complaint : String) : String := s!"rule {rule}: " ++ complaint

/-- The text of an error.  Symbols and tags stand in it as they are. -/
def message : ConfigurationError → String
  | .emptyPredecessors rule => ofRule rule "has no predecessors"
  | .directedStrictPredecessor rule symbol =>
      ofRule rule s!"strict predecessor `{symbol.text}` must not specify a direction"
  | .undirectedContextPredecessor rule position symbol =>
      ofRule rule s!"context predecessor {position} (`{symbol.text}`) must specify a direction"
  | .invalidDirection rule tag => ofRule rule s!"invalid direction `{tag}`"
  | .emptySuccessors rule => ofRule rule "has no successors"
  | .invalidProbability rule probability =>
      ofRule rule
        ("successor probability " ++ NumberLayout.plain.write probability ++ " is outside [0, 1]")
  | .probabilitySum rule sum =>
      ofRule rule
        ("successor probabilities sum to " ++ NumberLayout.plain.write sum ++
          ", expected exactly 1")
  | .inconsistentThresholds rule draw =>
      ofRule rule ("no successor threshold exceeds draw " ++ NumberLayout.plain.write draw)
  | .emptyStart => "axiom must contain at least one element"

end ConfigurationError
end LSystem
