import LSystem.Proofs.Cursor.Numbering
import LSystem.Proofs.Cursor.Traversal

namespace LSystem

/-!
# Bookmarks

A cursor holds the levels it has gone through.  A bookmark says the same by
numbers alone: which branches to go into, and which element of each level comes
next or is in focus.  It holds no part of the forest, so it can be laid aside
between two steps.  The forest is needed again for each call.

Numbers can be wrong.  A call has no result when it asks for a level that is not
there, takes a negative number for the number of an element or follows a path
that does not lead through branches.  The loops come to an end even so, because
each round brings the focus nearer to the end of its level, or goes outwards.
-/

variable {V : Type}

/-! ## Paths -/

/-- The elements that a path leads to.  Each number on it picks a branch among
the elements reached so far, and the empty path stays with the whole forest. -/
def Forest.contentsAt? (forest : Forest V) : List Nat → Option (Forest V)
  | [] => some forest
  | number :: path =>
      match forest[number]? with
      | some (.branch contents) => Forest.contentsAt? contents path
      | _ => none

/-! ## What a bookmark notes down -/

/-- How far the walk has got on one level: the number of the element that comes
next. -/
structure Bookmark.Stop where
  path : List Nat
  next : Nat

/-- Where the lookups have got on one level: the number of the element in focus,
or `-1` before the first one and the number of elements behind the last one. -/
structure Bookmark.View where
  path : List Nat
  focus : Int

/-- The stops of the walk, innermost first, and the views of the lookups,
outermost first.  Lookups are made on one level, and there may be views left
over from deeper ones; there is no level once a lookup has climbed past the
outermost one.  After a step the views are stale. -/
structure Bookmark where
  walk : List Bookmark.Stop
  views : List Bookmark.View
  level : Option Nat
  stale : Bool

namespace Bookmark

/-- In front of a forest. -/
def start : Bookmark := ⟨[⟨[], 0⟩], [⟨[], -1⟩], some 0, false⟩

/-- The level around a level, unless it is the outermost one. -/
def outward : Nat → Option Nat
  | 0 => none
  | level + 1 => some level

/-! ## Walking -/

def hasNext (forest : Forest V) (mark : Bookmark) : Option Bool :=
  match mark.walk with
  | [] => some false
  | [stop] => (forest.contentsAt? stop.path).map fun contents => stop.next < contents.length
  | _ :: _ :: _ => some true

/-- The next step of the walk. -/
def next (forest : Forest V) (mark : Bookmark) :
    Option (Except ContractViolation (Visit V × Bookmark)) := do
  if ← mark.hasNext forest then
    match mark.walk with
    | [] => none
    | stop :: around =>
        let contents ← forest.contentsAt? stop.path
        let passed : Stop := ⟨stop.path, stop.next + 1⟩
        match contents[stop.next]? with
        | some (.leaf letter) =>
            some (.ok (.leaf letter, { mark with walk := passed :: around, stale := true }))
        | some (.branch _) =>
            let inside : Stop := ⟨stop.path ++ [stop.next], 0⟩
            some (.ok (.enter, { mark with walk := inside :: passed :: around, stale := true }))
        | none => some (.ok (.exit, { mark with walk := around, stale := true }))
  else some (.error .exhaustedWalk)

/-! ## Looking around -/

/-- The view from a stop is on the element that the walk has passed last. -/
def Stop.view (stop : Stop) : View := ⟨stop.path, (stop.next : Int) - 1⟩

/-- Puts the views back to the stops of the walk. -/
def resetContext (mark : Bookmark) : Bookmark :=
  { mark with
    views := (mark.walk.map Stop.view).reverse
    level := outward mark.walk.length
    stale := false }

/-- Puts the views back if a step has been made since. -/
def refresh (mark : Bookmark) : Bookmark := if mark.stale then mark.resetContext else mark

/-- Moves the focus of one level. -/
def focusOn (level : Nat) (focus : Int) (mark : Bookmark) : Bookmark :=
  { mark with views := mark.views.modify level fun view => { view with focus } }

/-- Moves the focus of a level one element to the left and says what it is on
then.  In front of the first element it stays. -/
def retreat (forest : Forest V) (level : Nat) (mark : Bookmark) :
    Option (Option (Element V) × Bookmark) := do
  let view ← mark.views[level]?
  if view.focus ≤ 0 then some (none, mark.focusOn level (-1))
  else
    let contents ← forest.contentsAt? view.path
    let number ← (view.focus - 1).toNat?
    some (contents[number]?, mark.focusOn level number)

/-- Moves the focus of a level one element to the right and says what it is on
then.  Behind the last element it stays. -/
def advance (forest : Forest V) (level : Nat) (mark : Bookmark) :
    Option (Option (Element V) × Bookmark) := do
  let view ← mark.views[level]?
  let contents ← forest.contentsAt? view.path
  let number ← (view.focus + 1).toNat?
  if contents.length ≤ number then some (none, mark.focusOn level contents.length)
  else some (contents[number]?, mark.focusOn level number)

/-! ## Going through a level -/

/-- A way of moving the focus element by element.  Some number becomes smaller
with every element that is reached, so it cannot go on for ever. -/
structure Move (V : Type) where
  run : Bookmark → Option (Option (Element V) × Bookmark)
  remaining : Bookmark → Nat
  remaining_lt : ∀ {mark after : Bookmark} {element : Element V},
    run mark = some (some element, after) → remaining after < remaining mark

theorem view_focusOn {mark : Bookmark} {level : Nat} {view : View}
    (here : mark.views[level]? = some view) (focus : Int) :
    (mark.focusOn level focus).views[level]? = some { view with focus := focus } := by
  rw [focusOn, List.getElem?_modify_eq, here]
  rfl

/-- To the left there are as many elements as the number in focus says. -/
def leftward (forest : Forest V) (level : Nat) : Move V where
  run := retreat forest level
  remaining mark := ((mark.views[level]?).map fun view => view.focus.toNat).getD 0
  remaining_lt {mark after element} moved := by
    rcases here : mark.views[level]? with _ | view
    · rw [retreat, here] at moved
      cases moved
    · simp only [retreat, here, Option.bind_eq_bind, Option.bind_some] at moved
      split at moved
      · cases moved
      · simp only [Option.bind_eq_some_iff, Option.some.injEq, Prod.mk.injEq] at moved
        rcases moved with ⟨contents, -, number, nearer, -, rfl⟩
        have counted := Int.mem_toNat?.mp nearer
        rw [view_focusOn here]
        simp only [Option.map_some, Option.getD_some, Int.toNat_natCast]
        omega

@[simp]
theorem leftward_run (forest : Forest V) (level : Nat) :
    (leftward forest level).run = retreat forest level := rfl

/-- To the right there are the elements from the number in focus to the last one. -/
def rightward (forest : Forest V) (level : Nat) : Move V where
  run := advance forest level
  remaining mark := ((mark.views[level]?).bind fun view =>
    (forest.contentsAt? view.path).map fun contents => (contents.length - view.focus).toNat).getD 0
  remaining_lt {mark after element} moved := by
    rcases here : mark.views[level]? with _ | view
    · rw [advance, here] at moved
      cases moved
    · simp only [advance, here, Option.bind_eq_bind, Option.bind_some,
        Option.bind_eq_some_iff] at moved
      rcases moved with ⟨contents, reached, number, further, moved⟩
      split at moved
      · cases moved
      · simp only [Option.some.injEq, Prod.mk.injEq] at moved
        rcases moved with ⟨-, rfl⟩
        have counted := Int.mem_toNat?.mp further
        rw [view_focusOn here]
        simp only [Option.bind_some, reached, Option.map_some, Option.getD_some]
        omega

@[simp]
theorem rightward_run (forest : Forest V) (level : Nat) :
    (rightward forest level).run = advance forest level := rfl

/-- Moves on until an element is accepted or there is none left. -/
def seek (move : Move V) (accepts : Element V → Bool) (mark : Bookmark) :
    Option (Option (Element V) × Bookmark) :=
  match _ : move.run mark with
  | none => none
  | some (none, after) => some (none, after)
  | some (some element, after) =>
      if accepts element then some (some element, after) else seek move accepts after
termination_by move.remaining mark
decreasing_by exact move.remaining_lt ‹_›

/-- One round of a search. -/
theorem seek_eq (move : Move V) (accepts : Element V → Bool) (mark : Bookmark) :
    seek move accepts mark = (do
      let (reached, after) ← move.run mark
      match reached with
      | none => some (none, after)
      | some element =>
          if accepts element then some (some element, after) else seek move accepts after) := by
  rw [seek]
  split <;> rename_i moved <;> rw [moved] <;> rfl

/-- Moves on until a visible module is reached or there is none left, and keeps
note of whether a branch has been crossed. -/
def seekAcross (ignore : List Symbol) (move : Move V) (crossed : Bool) (mark : Bookmark) :
    Option (Bool × Option (Module V) × Bookmark) :=
  match _ : move.run mark with
  | none => none
  | some (none, after) => some (crossed, none, after)
  | some (some (.branch _), after) => seekAcross ignore move true after
  | some (some (.leaf letter), after) =>
      if ignore.contains letter.symbol then seekAcross ignore move crossed after
      else some (crossed, some letter, after)
termination_by move.remaining mark
decreasing_by all_goals exact move.remaining_lt ‹_›

/-- One round of a search for a parent. -/
theorem seekAcross_eq (ignore : List Symbol) (move : Move V) (crossed : Bool) (mark : Bookmark) :
    seekAcross ignore move crossed mark = (do
      let (reached, after) ← move.run mark
      match reached with
      | none => some (crossed, none, after)
      | some (.branch _) => seekAcross ignore move true after
      | some (.leaf letter) =>
          if ignore.contains letter.symbol then seekAcross ignore move crossed after
          else some (crossed, some letter, after)) := by
  rw [seekAcross]
  split <;> rename_i moved <;> rw [moved] <;> rfl

section Passing

variable {ignore : List Symbol} {move : Move V} {mark moved : Bookmark} {element : Element V}

/-- A search for a parent goes on past an element that is not visible, and takes note
if it is a branch. -/
theorem seekAcross_of_hidden (run : move.run mark = some (some element, moved))
    (hidden : element.isVisible ignore = false) (crossed : Bool) :
    seekAcross ignore move crossed mark =
      seekAcross ignore move (crossed || element.isBranch) moved := by
  rw [seekAcross_eq, run]
  rcases element with letter | inside
  · have ignored : letter.symbol ∈ ignore := by simpa using hidden
    simp [ignored, Element.isBranch]
  · simp [Element.isBranch]

/-- It stops on a visible module. -/
theorem seekAcross_of_visible (run : move.run mark = some (some element, moved))
    (visible : element.isVisible ignore = true) (crossed : Bool) :
    seekAcross ignore move crossed mark = some (crossed, element.letter?, moved) := by
  rw [seekAcross_eq, run]
  rcases element with letter | inside
  · have seen : letter.symbol ∉ ignore := by simpa using visible
    simp [seen, Element.letter?]
  · cases visible

end Passing

section Lookups

variable (forest : Forest V) (ignore : List Symbol)

/-- The nearest visible module on a level, the way that the moves go. -/
def sibling (move : Nat → Move V) (mark : Bookmark) : Option (Option (Module V) × Bookmark) :=
  match mark.level with
  | none => some (none, mark)
  | some level => do
      let (reached, mark) ← seek (move level) (·.isVisible ignore) mark
      some (reached.bind (·.letter?), mark)

/-- How many levels there are to be searched. -/
def depth (mark : Bookmark) : Nat := (mark.level.map (· + 1)).getD 0

theorem depth_outward_lt {mark : Bookmark} {level : Nat} (inside : mark.level = some level)
    (searched : Bookmark) : depth { searched with level := outward level } < mark.depth := by
  rw [depth, depth, inside]
  cases level <;> simp [outward]

/-- Searches the level to the left, and where it ends goes on with the level
around it. -/
def climb (mark : Bookmark) : Option (Option (Module V) × Bookmark) :=
  match _ : mark.level with
  | none => some (none, mark)
  | some level => do
      let (reached, searched) ← seek (leftward forest level) (·.isVisible ignore) mark
      match reached.bind (·.letter?) with
      | some letter => some (some letter, searched)
      | none => climb { searched with level := outward level }
termination_by mark.depth
decreasing_by exact depth_outward_lt ‹_› _

/-- One level of a climb. -/
theorem climb_eq (mark : Bookmark) :
    climb forest ignore mark =
      match mark.level with
      | none => some (none, mark)
      | some level => (do
          let (reached, searched) ← seek (leftward forest level) (·.isVisible ignore) mark
          match reached.bind (·.letter?) with
          | some letter => some (some letter, searched)
          | none => climb forest ignore { searched with level := outward level }) := by
  rw [climb]
  split <;> rename_i inside <;> rw [inside]

/-- Moves like `climb`.  The module that it reaches counts as found only if the
way there has crossed the border of a branch. -/
def climbAcross (crossed : Bool) (mark : Bookmark) : Option (Option (Module V) × Bookmark) :=
  match _ : mark.level with
  | none => some (none, mark)
  | some level => do
      let (crossed, reached, searched) ← seekAcross ignore (leftward forest level) crossed mark
      match reached with
      | some letter => some (if crossed then some letter else none, searched)
      | none => climbAcross true { searched with level := outward level }
termination_by mark.depth
decreasing_by exact depth_outward_lt ‹_› _

/-- One level of a climb towards a parent. -/
theorem climbAcross_eq (crossed : Bool) (mark : Bookmark) :
    climbAcross forest ignore crossed mark =
      match mark.level with
      | none => some (none, mark)
      | some level => (do
          let (crossed, reached, searched) ← seekAcross ignore (leftward forest level) crossed mark
          match reached with
          | some letter => some (if crossed then some letter else none, searched)
          | none => climbAcross forest ignore true { searched with level := outward level }) := by
  rw [climbAcross]
  split <;> rename_i inside <;> rw [inside]

/-- Goes into the branch in focus on a level.  Views of deeper levels are left
behind. -/
def descend (level : Nat) (mark : Bookmark) : Option Bookmark := do
  let view ← mark.views[level]?
  let number ← view.focus.toNat?
  some { mark with
    views := mark.views.take (level + 1) ++ [⟨view.path ++ [number], -1⟩]
    level := some (level + 1) }

/-- Goes down into the branch that follows the focus, ignored modules apart, and
searches its own level for the first visible module. -/
def child (mark : Bookmark) : Option (Option (Module V) × Bookmark) :=
  match mark.level with
  | none => some (none, mark)
  | some level => do
      let (reached, mark) ←
        seek (rightward forest level) (fun element => !element.isIgnored ignore) mark
      match reached with
      | some (.branch _) => sibling ignore (rightward forest) (← mark.descend level)
      | _ => some (none, mark)

/-- Looks along an axis from where the views are. -/
def search (axis : Axis) (mark : Bookmark) : Option (Option (Module V) × Bookmark) :=
  match axis with
  | .previousSiblingOrParent => climb forest ignore mark
  | .previousSibling => sibling ignore (leftward forest) mark
  | .nextSibling => sibling ignore (rightward forest) mark
  | .child => child forest ignore mark
  | .parent => climbAcross forest ignore false mark

/-- Looks along an axis from where the last lookup has stopped. -/
def lookUp (axis : Axis) (mark : Bookmark) : Option (Option (Module V) × Bookmark) :=
  mark.refresh.search forest ignore axis

/-- Looks in a direction, which may put the views back first. -/
def navigate (direction : Direction) (mark : Bookmark) : Option (Option (Module V) × Bookmark) :=
  (if direction.fromOrigin then mark.resetContext else mark).lookUp forest ignore direction.axis

/-! ## Calls -/

/-- Answers a call.  A step that is refused leaves the bookmark as it is. -/
def perform (mark : Bookmark) : Cursor.Call → Option (Cursor.Reply V × Bookmark)
  | .hasNext => do some (.goesOn (← mark.hasNext forest), mark)
  | .next => do
      match ← mark.next forest with
      | .error violation => some (.refused violation, mark)
      | .ok (visit, moved) => some (.visited visit, moved)
  | .resetContext => some (.reset, mark.resetContext)
  | .lookUp axis => do
      let (letter, moved) ← mark.lookUp forest ignore axis
      some (.found letter, moved)
  | .navigate direction => do
      let (letter, moved) ← mark.navigate forest ignore direction
      some (.found letter, moved)

/-- Answers calls one after another. -/
def performAll : List Cursor.Call → Bookmark → Option (List (Cursor.Reply V) × Bookmark)
  | [], mark => some ([], mark)
  | call :: rest, mark => do
      let (reply, moved) ← mark.perform forest ignore call
      let (replies, last) ← performAll rest moved
      some (reply :: replies, last)

end Lookups

end Bookmark
end LSystem
