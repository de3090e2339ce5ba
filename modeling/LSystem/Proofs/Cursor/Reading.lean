import LSystem.Proofs.Cursor.Bookmark
import Mathlib.Data.List.Chain

namespace LSystem

/-!
# Reading a bookmark

The numbers of a bookmark stand for levels: a path leads to the elements of a
level, and the number of the element in focus says where on it the focus is.
Levels one inside the other make a place, and two places make a cursor.  Main
statement: where the numbers are in order, the searches of a bookmark end, and
they end where the searches of the levels do.
-/

variable {V : Type}

namespace Bookmark

/-! ## Reading a bookmark -/

/-- The level that a view is of, with its focus. -/
def View.level (forest : Forest V) (view : View) : Level V :=
  .upTo ((forest.contentsAt? view.path).getD []) (view.focus + 1).toNat

/-- The place of views one inside the other, innermost first. -/
def placeOf (forest : Forest V) : List View → Place V
  | [] => .root forest
  | view :: around => ⟨view.level forest, around.map (·.level forest)⟩

/-- The cursor that a bookmark stands for. -/
def cursor (forest : Forest V) (mark : Bookmark) : Cursor V :=
  let position := placeOf forest (mark.walk.map Stop.view)
  let context :=
    if mark.stale then some position
    else mark.level.map fun level => placeOf forest (mark.views.take (level + 1)).reverse
  ⟨position, context⟩

/-! ## Order among the numbers -/

/-- The focus of a view is on an element of its level or at one of its ends. -/
def View.Within (forest : Forest V) (view : View) : Prop :=
  ∃ contents, forest.contentsAt? view.path = some contents ∧
    -1 ≤ view.focus ∧ view.focus ≤ contents.length

/-- A view goes into the element that the view around it is focused on. -/
def View.LeadsTo (outer inner : View) : Prop :=
  0 ≤ outer.focus ∧ inner.path = outer.path ++ [outer.focus.toNat]

/-- The stops of a walk are in order. -/
structure WalkFits (forest : Forest V) (walk : List Stop) : Prop where
  /-- There is always a stop, and the outermost one is on the forest itself. -/
  outermost : walk.getLast?.map (·.path) = some []
  /-- Every other stop is inside the element that the stop around it has passed
  last. -/
  nested : walk.IsChain fun inner outer =>
    0 < outer.next ∧ inner.path = outer.path ++ [outer.next - 1]
  /-- Every path leads to the forest or to a branch of it, and no stop is behind
  the end. -/
  within : ∀ stop ∈ walk, ∃ contents, forest.contentsAt? stop.path = some contents ∧
    stop.next ≤ contents.length

/-- The views of the lookups are in order, those left over included. -/
structure ViewsFit (forest : Forest V) (views : List View) (level : Option Nat) : Prop where
  level_lt : ∀ here, level = some here → here < views.length
  within : ∀ view ∈ views, view.Within forest
  /-- Up to the level of the lookups every view leads to the next one. -/
  nested : ∀ here, level = some here → (views.take (here + 1)).IsChain View.LeadsTo

/-- All numbers of a bookmark make sense. -/
structure WellFormed (forest : Forest V) (mark : Bookmark) : Prop where
  walk : WalkFits forest mark.walk
  views : ViewsFit forest mark.views mark.level

theorem wellFormed_start (forest : Forest V) : start.WellFormed forest where
  walk :=
    { outermost := rfl
      nested := .singleton _
      within := by
        intro stop member
        cases List.mem_singleton.mp member
        exact ⟨forest, rfl, Nat.zero_le _⟩ }
  views :=
    { level_lt := by
        rintro here ⟨⟩
        exact Nat.zero_lt_one
      within := by
        intro view member
        cases List.mem_singleton.mp member
        exact ⟨forest, rfl, Int.le_refl _, by dsimp only; omega⟩
      nested := by
        rintro here ⟨⟩
        exact .singleton _ }

@[simp]
theorem cursor_start (forest : Forest V) : start.cursor forest = .start forest := rfl

/-! ## Paths -/

/-- One number more goes into a branch of the level that the path leads to. -/
theorem contentsAt?_concat {forest outer : Forest V} {path : List Nat}
    (reached : forest.contentsAt? path = some outer) {number : Nat} {contents : Forest V}
    (branch : outer[number]? = some (.branch contents)) :
    forest.contentsAt? (path ++ [number]) = some contents := by
  induction path generalizing forest with
  | nil =>
      cases reached
      simp only [List.nil_append, Forest.contentsAt?, branch]
  | cons first rest inductionHypothesis =>
      rw [Forest.contentsAt?] at reached
      rw [List.cons_append, Forest.contentsAt?]
      split at reached
      · exact inductionHypothesis reached
      · cases reached

theorem View.level_eq {forest contents : Forest V} {path : List Nat}
    (reached : forest.contentsAt? path = some contents) (focus : Int) :
    View.level forest ⟨path, focus⟩ = .upTo contents (focus + 1).toNat := by
  rw [View.level, reached, Option.getD_some]

/-- A focus on an element is the number of that element. -/
theorem exists_number {forest contents : Forest V} {path : List Nat} {focus : Int}
    (reached : forest.contentsAt? path = some contents) {element : Element V}
    (focused : (View.level forest ⟨path, focus⟩).focus = some element) :
    ∃ number : Nat, focus = number ∧ contents[number]? = some element := by
  rw [View.level_eq reached] at focused
  rcases count : (focus + 1).toNat with _ | number
  · rw [count] at focused
    cases focused
  · rw [count] at focused
    exact ⟨number, by omega, focused⟩

/-! ## The level of the lookups -/

/-- A bookmark whose lookups are on the level of a view, inside the views around
it, innermost first, and with views left over from deeper levels. -/
def onLevel (walk : List Stop) (stale : Bool) (around : List View) (view : View)
    (deeper : List View) : Bookmark :=
  ⟨walk, around.reverse ++ view :: deeper, some around.length, stale⟩

section Moves

variable {forest contents : Forest V} {path : List Nat} {focus : Int}
variable (walk : List Stop) (stale : Bool) (around deeper : List View)

@[simp]
theorem views_onLevel (view : View) :
    (onLevel walk stale around view deeper).views[around.length]? = some view := by
  rw [onLevel, List.getElem?_append_right (Nat.le_of_eq List.length_reverse),
    List.length_reverse, Nat.sub_self]
  rfl

@[simp]
theorem take_onLevel (view : View) :
    (around.reverse ++ view :: deeper).take (around.length + 1) = (view :: around).reverse := by
  rw [List.take_append, List.length_reverse, Nat.add_sub_cancel_left,
    List.take_of_length_le (by rw [List.length_reverse]; omega), List.reverse_cons]
  rfl

@[simp]
theorem focusOn_onLevel (focus moved : Int) :
    (onLevel walk stale around ⟨path, focus⟩ deeper).focusOn around.length moved =
      onLevel walk stale around ⟨path, moved⟩ deeper := by
  have places : around.length = around.reverse.length := List.length_reverse.symm
  have changed : (around.reverse ++ (⟨path, focus⟩ : View) :: deeper).modify around.length
      (fun view => { view with focus := moved }) = around.reverse ++ ⟨path, moved⟩ :: deeper := by
    rw [places]
    generalize around.reverse = front
    induction front with
    | nil => rfl
    | cons first rest inductionHypothesis => exact congrArg (first :: ·) inductionHypothesis
  simp only [focusOn, onLevel, changed]

theorem descend_onLevel (number : Nat) :
    (onLevel walk stale around ⟨path, number⟩ deeper).descend around.length =
      some (onLevel walk stale (⟨path, number⟩ :: around) ⟨path ++ [number], -1⟩ []) := by
  rw [descend, views_onLevel]
  simp [onLevel, Int.toNat?]

/-- There is nothing to the left of the first element. -/
theorem retreat_of_nonpos (first : focus ≤ 0) :
    retreat forest around.length (onLevel walk stale around ⟨path, focus⟩ deeper) =
      some (none, onLevel walk stale around ⟨path, -1⟩ deeper) := by
  simp [retreat, first]

theorem retreat_of_pos (reached : forest.contentsAt? path = some contents) (number : Nat) :
    retreat forest around.length (onLevel walk stale around ⟨path, number + 1⟩ deeper) =
      some (contents[number]?, onLevel walk stale around ⟨path, number⟩ deeper) := by
  have positive : ¬ ((number : Int) + 1 ≤ 0) := by omega
  simp [retreat, positive, reached, Int.toNat?]

/-- There is nothing to the right of the last element. -/
theorem advance_of_length_le (reached : forest.contentsAt? path = some contents) {number : Nat}
    (last : contents.length ≤ number) :
    advance forest around.length (onLevel walk stale around ⟨path, (number : Int) - 1⟩ deeper) =
      some (none, onLevel walk stale around ⟨path, contents.length⟩ deeper) := by
  simp [advance, reached, Int.toNat?, last]

theorem advance_of_lt (reached : forest.contentsAt? path = some contents) {number : Nat}
    (more : number < contents.length) :
    advance forest around.length (onLevel walk stale around ⟨path, (number : Int) - 1⟩ deeper) =
      some (contents[number]?, onLevel walk stale around ⟨path, number⟩ deeper) := by
  simp [advance, reached, Int.toNat?, Nat.not_le.mpr more]

/-! ## Searching a level -/

/-- A search to the left ends, and it ends where a search of the level does. -/
theorem seek_leftward (reached : forest.contentsAt? path = some contents)
    (accepts : Element V → Bool) (low : -1 ≤ focus) (high : focus ≤ contents.length) :
    ∃ moved : Int, -1 ≤ moved ∧ moved ≤ contents.length ∧
      (View.level forest ⟨path, focus⟩).seekLeft accepts = View.level forest ⟨path, moved⟩ ∧
      seek (leftward forest around.length) accepts
          (onLevel walk stale around ⟨path, focus⟩ deeper) =
        some ((View.level forest ⟨path, moved⟩).focus,
          onLevel walk stale around ⟨path, moved⟩ deeper) := by
  simp only [View.level_eq reached]
  -- The focus of the view is what decreases from one round to the next.
  generalize rounds : focus.toNat = left
  induction left generalizing focus with
  | zero =>
      have first : focus ≤ 0 := by omega
      have count : (focus + 1).toNat ≤ 1 := by omega
      refine ⟨-1, Int.le_refl _, by omega, Level.seekLeft_upTo_of_le_one accepts count, ?_⟩
      rw [seek_eq, leftward_run, retreat_of_nonpos walk stale around deeper first]
      rfl
  | succ number inductionHypothesis =>
      have position : focus = number + 1 := by omega
      subst position
      have here : contents[number]? = some contents[number] :=
        List.getElem?_eq_getElem (by omega)
      have count : ((number : Int) + 1 + 1).toNat = number + 2 := by omega
      have countBefore : ((number : Int) + 1).toNat = number + 1 := by omega
      rw [count, Level.seekLeft_upTo accepts here, seek_eq, leftward_run,
        retreat_of_pos walk stale around deeper reached number, here]
      by_cases accepted : accepts contents[number]
      · refine ⟨number, by omega, by omega, ?_, ?_⟩
        · rw [if_pos accepted, countBefore]
        · simp only [Option.bind_eq_bind, Option.bind_some, if_pos accepted, countBefore,
            Level.upTo, here]
      · have further := @inductionHypothesis number (by omega) (by omega) (by omega)
        rw [countBefore] at further
        simpa only [Option.bind_eq_bind, Option.bind_some, if_neg accepted] using further

/-- A search to the right ends, and it ends where a search of the level does. -/
theorem seek_rightward (reached : forest.contentsAt? path = some contents)
    (accepts : Element V → Bool) (low : -1 ≤ focus) (high : focus ≤ contents.length) :
    ∃ moved : Int, -1 ≤ moved ∧ moved ≤ contents.length ∧
      (View.level forest ⟨path, focus⟩).seekRight accepts = View.level forest ⟨path, moved⟩ ∧
      seek (rightward forest around.length) accepts
          (onLevel walk stale around ⟨path, focus⟩ deeper) =
        some ((View.level forest ⟨path, moved⟩).focus,
          onLevel walk stale around ⟨path, moved⟩ deeper) := by
  simp only [View.level_eq reached]
  obtain ⟨next, position⟩ : ∃ next : Nat, focus = (next : Int) - 1 :=
    ⟨(focus + 1).toNat, by omega⟩
  subst position
  rw [Int.sub_add_cancel, Int.toNat_natCast]
  -- The elements to the right of the focus become fewer from one round to the next.
  generalize rounds : contents.length - next = left
  induction left generalizing next with
  | zero =>
      have last : contents.length ≤ next := by omega
      have count : ((contents.length : Int) + 1).toNat = contents.length + 1 := by omega
      refine ⟨contents.length, by omega, Int.le_refl _, ?_, ?_⟩
      · rw [count, Level.seekRight_upTo_of_length_le accepts last]
      · rw [seek_eq, rightward_run,
          advance_of_length_le walk stale around deeper reached last, count,
          Level.upTo_of_length_lt (Nat.lt_succ_self _)]
        rfl
  | succ more inductionHypothesis =>
      have inside : next < contents.length := by omega
      have here : contents[next]? = some contents[next] := List.getElem?_eq_getElem inside
      have count : ((next : Int) + 1).toNat = next + 1 := by omega
      rw [Level.seekRight_upTo accepts here, seek_eq, rightward_run,
        advance_of_lt walk stale around deeper reached inside, here]
      by_cases accepted : accepts contents[next]
      · refine ⟨next, by omega, by omega, ?_, ?_⟩
        · rw [if_pos accepted, count]
        · simp only [Option.bind_eq_bind, Option.bind_some, if_pos accepted, count, Level.upTo,
            here]
      · have further := inductionHypothesis (next + 1) (by omega) (by omega) (by omega)
        rw [Int.natCast_add, Int.natCast_one, Int.add_sub_cancel] at further
        simpa only [Option.bind_eq_bind, Option.bind_some, if_neg accepted] using further

/-- A search for a parent ends where a search for a visible module does, and has
noted whether it has passed a branch. -/
theorem seekAcross_leftward (reached : forest.contentsAt? path = some contents)
    (ignore : List Symbol) (crossed : Bool) (low : -1 ≤ focus) (high : focus ≤ contents.length) :
    ∃ moved : Int, -1 ≤ moved ∧ moved ≤ contents.length ∧
      (View.level forest ⟨path, focus⟩).seekLeft (·.isVisible ignore) =
        View.level forest ⟨path, moved⟩ ∧
      seekAcross ignore (leftward forest around.length) crossed
          (onLevel walk stale around ⟨path, focus⟩ deeper) =
        some (crossed || (View.level forest ⟨path, focus⟩).passesBranch ignore,
          (View.level forest ⟨path, moved⟩).letter?,
          onLevel walk stale around ⟨path, moved⟩ deeper) := by
  simp only [View.level_eq reached]
  generalize rounds : focus.toNat = left
  induction left generalizing focus crossed with
  | zero =>
      have first : focus ≤ 0 := by omega
      have count : (focus + 1).toNat ≤ 1 := by omega
      refine ⟨-1, Int.le_refl _, by omega, Level.seekLeft_upTo_of_le_one _ count, ?_⟩
      rw [seekAcross_eq, leftward_run, retreat_of_nonpos walk stale around deeper first,
        Level.passesBranch_upTo_of_le_one ignore count, Bool.or_false]
      rfl
  | succ number inductionHypothesis =>
      have position : focus = number + 1 := by omega
      subst position
      have here : contents[number]? = some contents[number] :=
        List.getElem?_eq_getElem (by omega)
      have count : ((number : Int) + 1 + 1).toNat = number + 2 := by omega
      have countBefore : ((number : Int) + 1).toNat = number + 1 := by omega
      have further := fun crossed =>
        @inductionHypothesis number crossed (by omega) (by omega) (by omega)
      rw [countBefore] at further
      have moved : (leftward forest around.length).run
          (onLevel walk stale around ⟨path, number + 1⟩ deeper) =
            some (some contents[number], onLevel walk stale around ⟨path, number⟩ deeper) := by
        rw [leftward_run, retreat_of_pos walk stale around deeper reached number, here]
      rw [count, Level.seekLeft_upTo _ here, Level.passesBranch_upTo ignore here]
      cases visible : contents[number].isVisible ignore with
      | true =>
          refine ⟨number, by omega, by omega, ?_, ?_⟩
          · rw [if_pos rfl, countBefore]
          · rw [seekAcross_of_visible moved visible, Bool.not_true, Bool.false_and, Bool.or_false,
              countBefore, Level.upTo, Level.letter?_eq, here, Option.bind_some]
      | false =>
          rw [seekAcross_of_hidden moved visible, if_neg Bool.false_ne_true, Bool.not_false,
            Bool.true_and, ← Bool.or_assoc]
          exact further (crossed || contents[number].isBranch)

end Moves

end Bookmark
end LSystem
