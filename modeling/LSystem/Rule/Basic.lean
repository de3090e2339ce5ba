import LSystem.Forest.Basic

namespace LSystem

/-!
# Rules

A rule says which modules it replaces, in which surroundings, and by what.  Its
first predecessor, the strict one, is matched against the module to be replaced.
The others are context predecessors; each is looked for in its own direction.
The arguments of all matched modules together, in the order of the predecessors,
are what conditions and productions see.
-/

/-- A test on the arguments that a match has gathered. -/
abbrev Condition (V : Type) := List V → Bool

/-- Makes the replacement from the arguments that a match has gathered. -/
abbrev Production (V : Type) := List V → Forest V

/-- A module that a rule asks for.  The direction is the tag as written, which
may not be a direction at all. -/
structure Predecessor where
  symbol : Symbol
  arity : Nat
  direction : Option String

/-- A replacement and how likely it is chosen. -/
structure Successor (V : Type) where
  probability : Float
  production : Production V

/-- A rule as declared, which need not make sense. -/
structure Rule (V : Type) where
  predecessors : List Predecessor
  condition : Option (Condition V)
  successors : List (Successor V)

namespace Predecessor

def signature (predecessor : Predecessor) : Signature := ⟨predecessor.symbol, predecessor.arity⟩

/-- A predecessor without a direction, as the strict one has to be. -/
def strict (symbol : Symbol) (arity : Nat) : Predecessor := ⟨symbol, arity, none⟩

/-- A predecessor to be looked for in a direction. -/
def toward (symbol : Symbol) (arity : Nat) (tag : String) : Predecessor := ⟨symbol, arity, some tag⟩

end Predecessor

namespace Rule

variable {V : Type}

/-- A rule without condition and with a single certain replacement. -/
def certain (predecessors : List Predecessor) (production : Production V) : Rule V :=
  ⟨predecessors, none, [⟨1.0, production⟩]⟩

/-- The same rule under a condition. -/
def onlyIf (rule : Rule V) (condition : Condition V) : Rule V :=
  { rule with condition := some condition }

end Rule
end LSystem
