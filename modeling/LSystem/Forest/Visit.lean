import LSystem.Forest.Basic

namespace LSystem

/-!
# Visits

A walk over a forest takes one step for each module, and two for each branch:
one to enter it and one to leave it.  `Forest.visits` is the whole walk.
-/

/-- One step of a walk. -/
inductive Visit (V : Type) where
  | enter
  | exit
  | leaf (letter : Module V)

namespace Visit

variable {V : Type}

/-- The symbol that a step stands for.  Entering and leaving a branch look like
the modules that spell its brackets. -/
def symbol : Visit V → Symbol
  | .enter => .opening
  | .exit => .closing
  | .leaf letter => letter.symbol

/-- Entering and leaving a branch come without arguments. -/
def arguments : Visit V → List V
  | .enter => []
  | .exit => []
  | .leaf letter => letter.arguments

@[simp]
theorem symbol_enter : (enter : Visit V).symbol = .opening := rfl

@[simp]
theorem symbol_exit : (exit : Visit V).symbol = .closing := rfl

@[simp]
theorem symbol_leaf (letter : Module V) : (leaf letter).symbol = letter.symbol := rfl

end Visit

variable {V : Type}

mutual

/-- The walk over one element. -/
def Element.visits : Element V → List (Visit V)
  | .leaf letter => [.leaf letter]
  | .branch contents => .enter :: (Forest.visits contents ++ [.exit])

/-- The walk over a forest, depth first and from left to right. -/
def Forest.visits : Forest V → List (Visit V)
  | [] => []
  | element :: rest => element.visits ++ Forest.visits rest

end

attribute [simp] Element.visits Forest.visits

@[simp]
theorem Forest.visits_append (first second : Forest V) :
    Forest.visits (first ++ second) = Forest.visits first ++ Forest.visits second := by
  induction first with
  | nil => rfl
  | cons element rest inductionHypothesis => simp [inductionHypothesis]

/-- A walk takes as many steps as the size of the forest says. -/
@[simp]
theorem Forest.length_visits (forest : Forest V) :
    (Forest.visits forest).length = Forest.size forest := by
  induction forest using Forest.induction with
  | nil => rfl
  | leaf first rest inRest => simp [inRest, Nat.add_comm]
  | branch contents rest inContents inRest => simp [inContents, inRest]; omega

end LSystem
