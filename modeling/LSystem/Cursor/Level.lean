import LSystem.Forest.Basic

namespace LSystem

/-!
# Levels

A level is one sequence of elements seen from a focus.  The elements before the
focus are kept nearest first, so that both sides start next to it.  The focus is
vacant when it has been parked before the first or after the last element.

Searching to the left is searching to the right in the flipped level, so every
fact about one direction is a fact about the other.
-/

/-- A sequence of elements with a focus on one of them, or at one of its ends. -/
structure Level (V : Type) where
  left : List (Element V)
  focus : Option (Element V)
  right : List (Element V)

namespace Level

variable {V : Type}

/-- The focus is parked before the first element. -/
def start (contents : List (Element V)) : Level V := ⟨[], none, contents⟩

/-- The same level read from right to left. -/
def flip (level : Level V) : Level V := ⟨level.right, level.focus, level.left⟩

/-- The elements of the level in their order. -/
def contents (level : Level V) : List (Element V) :=
  level.left.reverse ++ level.focus.toList ++ level.right

@[simp]
theorem contents_flip (level : Level V) : level.flip.contents = level.contents.reverse := by
  obtain ⟨left, focus, right⟩ := level
  cases focus <;> simp [contents, flip]

/-! ## Searching -/

/-- Focuses on the first accepted element ahead, moving past the refused ones.
When there is none the focus is parked behind the last element. -/
def settle (accepts : Element V → Bool) (passed : List (Element V)) :
    List (Element V) → Level V
  | [] => ⟨passed, none, []⟩
  | element :: rest =>
      if accepts element then ⟨passed, some element, rest⟩
      else settle accepts (element :: passed) rest

/-- Searches strictly to the right of the focus. -/
def seekRight (accepts : Element V → Bool) (level : Level V) : Level V :=
  settle accepts (level.focus.toList ++ level.left) level.right

/-- Searches strictly to the left of the focus. -/
def seekLeft (accepts : Element V → Bool) (level : Level V) : Level V :=
  (level.flip.seekRight accepts).flip

@[simp]
theorem contents_settle (accepts : Element V → Bool) (passed ahead : List (Element V)) :
    (settle accepts passed ahead).contents = passed.reverse ++ ahead := by
  induction ahead generalizing passed with
  | nil => simp [settle, contents]
  | cons element rest inductionHypothesis =>
      by_cases accepted : accepts element
      · simp [settle, accepted, contents]
      · simp [settle, accepted, inductionHypothesis]

/-- A search moves the focus and leaves the elements alone. -/
@[simp]
theorem contents_seekRight (accepts : Element V → Bool) (level : Level V) :
    (level.seekRight accepts).contents = level.contents := by
  obtain ⟨left, focus, right⟩ := level
  rw [seekRight, contents_settle]
  cases focus <;> simp [contents]

@[simp]
theorem contents_seekLeft (accepts : Element V → Bool) (level : Level V) :
    (level.seekLeft accepts).contents = level.contents := by
  simp [seekLeft]

/-- The module in focus, if the focus is on one. -/
def letter? (level : Level V) : Option (Module V) :=
  match level.focus with
  | some (.leaf letter) => some letter
  | _ => none

end Level
end LSystem
