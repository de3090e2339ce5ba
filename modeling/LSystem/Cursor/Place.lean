import LSystem.Cursor.Direction
import LSystem.Cursor.Level

namespace LSystem

/-!
# Places and lookups

A place is a level together with the levels around it, each focused on the
branch that the next inner one is the contents of.  A lookup moves from a place
to another one and may answer with a module it has found there.

Branches and ignored modules are never the answer of a lookup.  A lookup that
climbs past the outermost level leaves no place behind.
-/

/-! ## What a lookup may land on -/

namespace Element

variable {V : Type}

def isBranch : Element V → Bool
  | .leaf _ => false
  | .branch _ => true

def isIgnored (ignore : List Symbol) : Element V → Bool
  | .leaf letter => ignore.contains letter.symbol
  | .branch _ => false

/-- A module that is not ignored can be the answer of a lookup. -/
def isVisible (ignore : List Symbol) (element : Element V) : Bool :=
  !element.isBranch && !element.isIgnored ignore

end Element

/-- Whether a branch stands between the focus and the nearest visible module to
its left. -/
def Level.passesBranch {V : Type} (ignore : List Symbol) (level : Level V) : Bool :=
  (level.left.takeWhile fun element => !element.isVisible ignore).any (·.isBranch)

/-! ## Places -/

/-- A level and the levels around it, innermost first. -/
structure Place (V : Type) where
  level : Level V
  enclosing : List (Level V)

/-- What a lookup has found, and the place where it stopped, if it is still
inside the forest. -/
structure Lookup (V : Type) where
  found : Option (Module V)
  place : Option (Place V)

namespace Place

variable {V : Type}

/-- In front of the whole forest. -/
def root (forest : Forest V) : Place V := ⟨.start forest, []⟩

/-! ## Siblings -/

/-- The nearest visible module to the left on the same level.  Branches are
skipped.  When there is none the focus is parked in front of the level. -/
def previousSibling (ignore : List Symbol) (place : Place V) : Lookup V :=
  let level := place.level.seekLeft (·.isVisible ignore)
  ⟨level.letter?, some ⟨level, place.enclosing⟩⟩

/-- The nearest visible module to the right on the same level. -/
def nextSibling (ignore : List Symbol) (place : Place V) : Lookup V :=
  let level := place.level.seekRight (·.isVisible ignore)
  ⟨level.letter?, some ⟨level, place.enclosing⟩⟩

/-! ## Climbing -/

/-- Searches a level to the left, and where it ends goes on with the level
around it, to the left of the branch just left. -/
def climb (ignore : List Symbol) (level : Level V) (enclosing : List (Level V)) : Lookup V :=
  let reached := level.seekLeft (·.isVisible ignore)
  match reached.letter? with
  | some letter => ⟨some letter, some ⟨reached, enclosing⟩⟩
  | none =>
      match enclosing with
      | [] => ⟨none, none⟩
      | outer :: around => climb ignore outer around

/-- The nearest visible module to the left, on this level or else on one of the
levels around it. -/
def previousSiblingOrParent (ignore : List Symbol) (place : Place V) : Lookup V :=
  climb ignore place.level place.enclosing

/-- Moves like `climb`.  The module that it reaches counts as found only if the
way there has crossed the border of a branch. -/
def climbAcross (ignore : List Symbol) (crossed : Bool) (level : Level V)
    (enclosing : List (Level V)) : Lookup V :=
  let reached := level.seekLeft (·.isVisible ignore)
  match reached.letter? with
  | some letter =>
      ⟨if crossed || level.passesBranch ignore then some letter else none,
        some ⟨reached, enclosing⟩⟩
  | none =>
      match enclosing with
      | [] => ⟨none, none⟩
      | outer :: around => climbAcross ignore true outer around

/-- The module that a branch hangs off.  A module to the left on the same level
is only a sibling, unless a branch stands in between. -/
def parent (ignore : List Symbol) (place : Place V) : Lookup V :=
  climbAcross ignore false place.level place.enclosing

/-! ## Descending -/

/-- Goes down into the branch that follows the focus, ignored modules apart,
and searches its own level for the first visible module.  A visible module in
front of the branch bars the way and stays in focus. -/
def child (ignore : List Symbol) (place : Place V) : Lookup V :=
  let level := place.level.seekRight fun element => !element.isIgnored ignore
  match level.focus with
  | some (.branch contents) =>
      let inside := (Level.start contents).seekRight (·.isVisible ignore)
      ⟨inside.letter?, some ⟨inside, level :: place.enclosing⟩⟩
  | _ => ⟨none, some ⟨level, place.enclosing⟩⟩

/-! ## All axes -/

/-- Looks along one axis. -/
def lookUp (ignore : List Symbol) (axis : Axis) (place : Place V) : Lookup V :=
  match axis with
  | .previousSiblingOrParent => place.previousSiblingOrParent ignore
  | .previousSibling => place.previousSibling ignore
  | .nextSibling => place.nextSibling ignore
  | .child => place.child ignore
  | .parent => place.parent ignore

end Place
end LSystem
