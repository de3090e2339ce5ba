namespace LSystem

/-!
# Chance

A stochastic rule draws a number to choose among its successors.  A source of
chance is the whole sequence of numbers that it is going to give, and how many
of them it has given so far, so a run can be repeated and its draws counted.
-/

/-- A sequence of draws and the place that has been reached in it. -/
structure Chance where
  draws : Nat → Float
  used : Nat

namespace Chance

/-- A source that has not been asked yet. -/
def ofDraws (draws : Nat → Float) : Chance := ⟨draws, 0⟩

/-- Gives the listed numbers in order, and then zero for ever. -/
def scripted (script : List Float) : Chance := .ofDraws fun index => script.getD index 0.0

/-- The next number, and the source after it. -/
def draw (chance : Chance) : Float × Chance :=
  (chance.draws chance.used, { chance with used := chance.used + 1 })

end Chance
end LSystem
