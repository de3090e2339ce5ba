import LSystem.Cursor.Basic
import LSystem.Rendering.Actions

namespace LSystem

/-!
# Renderings

A rendering walks through a generation and calls the action of every symbol
that has one.  It can stop after any step and be taken up again, and actions may
be bound otherwise in between.
-/

/-- How many steps a rendering has taken, and how many of them had an action. -/
structure RenderTally where
  visited : Nat
  invoked : Nat
deriving DecidableEq

/-- A rendering in progress. -/
structure Rendering (V : Type) where
  cursor : Cursor V
  tally : RenderTally

namespace Rendering

variable {V σ : Type}

/-- In front of a generation, with nothing done yet. -/
def start (forest : Forest V) : Rendering V := ⟨.start forest, ⟨0, 0⟩⟩

@[simp]
theorem cursor_start (forest : Forest V) : (start forest).cursor = .start forest := rfl

def hasNext (rendering : Rendering V) : Bool := rendering.cursor.hasNext

/-- One step of a rendering, with its effect on the host. -/
def step (actions : Actions V σ) (host : σ) (rendering : Rendering V) :
    Except ContractViolation (Rendering V × σ) :=
  match rendering.cursor.next with
  | .error violation => .error violation
  | .ok (visit, cursor) =>
      let ⟨visited, invoked⟩ := rendering.tally
      match actions.find? visit.symbol with
      | none => .ok (⟨cursor, ⟨visited + 1, invoked⟩⟩, host)
      | some action => .ok (⟨cursor, ⟨visited + 1, invoked + 1⟩⟩, action visit.arguments host)

/-- A rendering that goes on can take its next step, whatever actions are bound. -/
theorem exists_step {rendering : Rendering V} (goesOn : rendering.hasNext = true)
    (actions : Actions V σ) (host : σ) :
    ∃ next after, rendering.step actions host = .ok (next, after) := by
  rcases Cursor.exists_next goesOn with ⟨visit, cursor, made⟩
  rw [step, made]
  dsimp only
  split
  · exact ⟨_, _, rfl⟩
  · exact ⟨_, _, rfl⟩

end Rendering
end LSystem
