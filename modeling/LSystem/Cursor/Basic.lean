import LSystem.Cursor.Place
import LSystem.Fault.ContractViolation
import LSystem.Forest.Visit

namespace LSystem

/-!
# Cursors

A cursor does two jobs over one forest.  It walks the forest step by step, and
between two steps it looks around the module that the last step has produced.
The two jobs keep separate places: lookups move the context and never the
position, and every step puts the context back to the position.
-/

/-- A walk in progress, and where the lookups since its last step have got to.
There is no context once a lookup has climbed past the outermost level. -/
structure Cursor (V : Type) where
  position : Place V
  context : Option (Place V)

/-! ## Walking -/

/-- One step of the walk.  It focuses on the next element of the level and goes
inside if that is a branch; at the end of a level it returns to the level
around it, whose focus is the branch just walked through. -/
def Place.step? {V : Type} (place : Place V) : Option (Visit V × Place V) :=
  let ⟨level, enclosing⟩ := place
  let passed := level.focus.toList ++ level.left
  match level.right with
  | .leaf letter :: right => some (.leaf letter, ⟨⟨passed, some (.leaf letter), right⟩, enclosing⟩)
  | .branch contents :: right =>
      some (.enter, ⟨.start contents, ⟨passed, some (.branch contents), right⟩ :: enclosing⟩)
  | [] =>
      match enclosing with
      | [] => none
      | outer :: around => some (.exit, ⟨outer, around⟩)

namespace Cursor

variable {V : Type}

/-- In front of a forest, for walking as well as for lookups. -/
def start (forest : Forest V) : Cursor V := ⟨.root forest, some (.root forest)⟩

@[simp]
theorem position_start (forest : Forest V) : (start forest).position = .root forest := rfl

/-- A walk goes on while it is inside a branch or has an element ahead. -/
def hasNext (cursor : Cursor V) : Bool :=
  match cursor.position.enclosing with
  | [] => !cursor.position.level.right.isEmpty
  | _ :: _ => true

/-- The next step of the walk.  Lookups start from its new position. -/
def next (cursor : Cursor V) : Except ContractViolation (Visit V × Cursor V) :=
  match cursor.position.step? with
  | some (visit, position) => .ok (visit, ⟨position, some position⟩)
  | none => .error .exhaustedWalk

theorem hasNext_eq_isSome_step? (cursor : Cursor V) :
    cursor.hasNext = cursor.position.step?.isSome := by
  obtain ⟨⟨⟨left, focus, right⟩, enclosing⟩, context⟩ := cursor
  rcases right with _ | ⟨_ | _, _⟩ <;> cases enclosing <;> rfl

/-- A walk that goes on has a next step. -/
theorem exists_next {cursor : Cursor V} (goesOn : cursor.hasNext = true) :
    ∃ visit moved, cursor.next = .ok (visit, moved) := by
  rw [hasNext_eq_isSome_step?, Option.isSome_iff_exists] at goesOn
  rcases goesOn with ⟨⟨visit, place⟩, taken⟩
  exact ⟨visit, ⟨place, some place⟩, by rw [next, taken]⟩

/-! ## Looking around -/

/-- Puts the context back to the position of the walk. -/
def resetContext (cursor : Cursor V) : Cursor V := { cursor with context := some cursor.position }

/-- Looks along an axis from where the last lookup has stopped.  Past the
outermost level nothing can be found until the context is reset. -/
def lookUp (ignore : List Symbol) (axis : Axis) (cursor : Cursor V) :
    Option (Module V) × Cursor V :=
  match cursor.context with
  | none => (none, cursor)
  | some place =>
      let lookup := place.lookUp ignore axis
      (lookup.found, { cursor with context := lookup.place })

/-- Looks in a direction, which may reset the context first. -/
def navigate (ignore : List Symbol) (direction : Direction) (cursor : Cursor V) :
    Option (Module V) × Cursor V :=
  (if direction.fromOrigin then cursor.resetContext else cursor).lookUp ignore direction.axis

end Cursor
end LSystem
