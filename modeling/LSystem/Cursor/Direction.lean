namespace LSystem

/-!
# Directions

A context predecessor says where to look for its module by a short tag: one
mark for the axis, with a point in front when the search starts over from the
module that the rule is matched against.  Main statement: a text is read as a
direction exactly when it is that direction's tag.
-/

/-- The ways in which the neighbourhood of a module can be searched. -/
inductive Axis where
  | previousSiblingOrParent
  | previousSibling
  | nextSibling
  | child
  | parent
deriving DecidableEq

namespace Axis

def mark : Axis → Char
  | .previousSiblingOrParent => '^'
  | .previousSibling => '<'
  | .nextSibling => '>'
  | .child => '['
  | .parent => ']'

def ofMark? : Char → Option Axis
  | '^' => some .previousSiblingOrParent
  | '<' => some .previousSibling
  | '>' => some .nextSibling
  | '[' => some .child
  | ']' => some .parent
  | _ => none

theorem ofMark?_eq_some_iff {mark : Char} {axis : Axis} :
    ofMark? mark = some axis ↔ mark = axis.mark := by
  constructor
  · intro read
    unfold ofMark? at read
    split at read <;> cases read <;> rfl
  · rintro rfl
    cases axis <;> rfl

end Axis

/-- An axis, and whether the search starts over from where the match began. -/
structure Direction where
  axis : Axis
  fromOrigin : Bool
deriving DecidableEq

namespace Direction

/-- The characters of the tag. -/
def marks (direction : Direction) : List Char :=
  if direction.fromOrigin then ['.', direction.axis.mark] else [direction.axis.mark]

def tag (direction : Direction) : String := String.ofList direction.marks

/-- Reads the characters of a tag. -/
def ofMarks? : List Char → Option Direction
  | [mark] => (Axis.ofMark? mark).map (⟨·, false⟩)
  | ['.', mark] => (Axis.ofMark? mark).map (⟨·, true⟩)
  | _ => none

/-- Reads a tag.  Only the first point is part of the notation, so a second one
is refused like any other character. -/
def ofTag? (tag : String) : Option Direction := ofMarks? tag.toList

theorem ofMarks?_eq_some_iff {characters : List Char} {direction : Direction} :
    ofMarks? characters = some direction ↔ characters = direction.marks := by
  obtain ⟨axis, fromOrigin⟩ := direction
  unfold ofMarks?
  split <;> cases fromOrigin <;> simp_all [Direction.marks, Axis.ofMark?_eq_some_iff]

theorem ofTag?_eq_some_iff {text : String} {direction : Direction} :
    ofTag? text = some direction ↔ text = direction.tag := by
  rw [ofTag?, ofMarks?_eq_some_iff, tag, ← String.toList_inj, String.toList_ofList]

end Direction
end LSystem
