import LSystem.Proofs.Cursor.Ascent
import LSystem.Proofs.Cursor.Siblings
import LSystem.Proofs.Cursor.Standing

namespace LSystem

/-!
# Looking downward

A child is looked for in the branch that follows the focus, where ignored modules may
stand in between, and only on the level of that branch.  Main statements: which element
a lookup of a child stops at and what it answers; and looking for the parent leads back
from a child to the very occurrence that it hangs off, be it straight away or when the
walk comes to the child.
-/

variable {V : Type}

namespace Bookmark

/-- The lookups have gone into a branch of the level that a view is of, and have moved
the focus there. -/
def wentInto (here : Nat) (view : View) (number : Nat) (inner : Int) (mark : Bookmark) :
    Bookmark :=
  { mark with
    views := mark.views.take here ++ [⟨view.path, number⟩, ⟨view.path ++ [number], inner⟩]
    level := some (here + 1) }

section Descending

variable {forest contents inside : Forest V} {ignore : List Symbol} {mark : Bookmark}
  {here number : Nat} {view : View}

/-- A bookmark that looks from a focus is on the level of it. -/
theorem LooksFrom.exists_onLevel (looks : mark.LooksFrom forest here view contents) :
    ∃ walk stale around deeper, here = around.length ∧
      mark = onLevel walk stale around view deeper := by
  rcases exists_eq_onLevel looks.inside looks.here with ⟨around, deeper, length, same⟩
  exact ⟨_, _, around, deeper, length, same⟩

theorem wentInto_onLevel (walk : List Stop) (stale : Bool) (around deeper : List View)
    (view : View) (number : Nat) (inner : Int) :
    (onLevel walk stale around view deeper).wentInto around.length view number inner =
      onLevel walk stale (⟨view.path, number⟩ :: around) ⟨view.path ++ [number], inner⟩ [] := by
  have before : (around.reverse ++ view :: deeper).take around.length = around.reverse :=
    List.take_left' List.length_reverse
  simp only [wentInto, onLevel, before, List.reverse_cons, List.append_assoc, List.length_cons,
    List.cons_append, List.nil_append]

/-- The branch in focus on a level is gone into. -/
theorem descend_focusOn (looks : mark.LooksFrom forest here view contents) (number : Nat) :
    (mark.focusOn here number).descend here = some (mark.wentInto here view number (-1)) := by
  rcases looks.exists_onLevel with ⟨walk, stale, around, deeper, rfl, rfl⟩
  rw [focusOn_onLevel, descend_onLevel, wentInto_onLevel]

theorem LooksFrom.focusOn_wentInto (looks : mark.LooksFrom forest here view contents)
    (first second : Int) :
    (mark.wentInto here view number first).focusOn (here + 1) second =
      mark.wentInto here view number second := by
  rcases looks.exists_onLevel with ⟨walk, stale, around, deeper, rfl, rfl⟩
  rw [wentInto_onLevel, wentInto_onLevel]
  exact focusOn_onLevel walk stale (⟨view.path, number⟩ :: around) [] first second

theorem LooksFrom.getElem?_wentInto (looks : mark.LooksFrom forest here view contents)
    (number : Nat) (inner : Int) :
    (mark.wentInto here view number inner).views[here]? = some ⟨view.path, number⟩ ∧
      (mark.wentInto here view number inner).views[here + 1]? =
        some ⟨view.path ++ [number], inner⟩ := by
  have bound := (List.getElem?_eq_some_iff.mp looks.here).1
  have length : (mark.views.take here).length = here := List.length_take_of_le (Nat.le_of_lt bound)
  constructor
  · rw [wentInto, List.getElem?_append_right (by omega), length, Nat.sub_self]
    rfl
  · rw [wentInto, List.getElem?_append_right (by omega), length, Nat.add_sub_cancel_left]
    rfl

/-- Inside a branch there is a level to look from. -/
theorem LooksFrom.wentInto (looks : mark.LooksFrom forest here view contents)
    (branch : contents[number]? = some (.branch inside)) {inner : Int} (low : -1 ≤ inner)
    (high : inner ≤ inside.length) :
    (mark.wentInto here view number inner).LooksFrom forest (here + 1)
      ⟨view.path ++ [number], inner⟩ inside where
  inside := rfl
  here := (looks.getElem?_wentInto number inner).2
  reached := contentsAt?_concat looks.reached branch
  low := low
  high := high

/-- What a lookup of a child comes to.  It stops at the next element that is not an
ignored module. -/
inductive Descends (forest : Forest V) (ignore : List Symbol) (mark : Bookmark) (here : Nat)
    (view : View) (contents : Forest V) : Option (Module V) → Bookmark → Prop where
  /-- Unless that is a branch nothing is found, and the level stays. -/
  | barred {found : Option (Element V)} {moved : Int}
      (reaches : Side.right.Reaches (fun element => !element.isIgnored ignore) contents view.focus
        found moved)
      (noBranch : ∀ inside, found ≠ some (.branch inside)) :
      Descends forest ignore mark here view contents none (mark.focusOn here moved)
  /-- A branch becomes the level, and its own first visible module is the child. -/
  | entered {number : Nat} {inside : Forest V} {found : Option (Element V)} {inner : Int}
      (reaches : Side.right.Reaches (fun element => !element.isIgnored ignore) contents view.focus
        (some (.branch inside)) number)
      (first : Side.right.Reaches (·.isVisible ignore) inside (-1) found inner) :
      Descends forest ignore mark here view contents (found.bind (·.letter?))
        (mark.wentInto here view number inner)

/-- A lookup of a child has a result. -/
theorem child_descends (ignore : List Symbol) (looks : mark.LooksFrom forest here view contents) :
    ∃ answer after, child forest ignore mark = some (answer, after) ∧
      Descends forest ignore mark here view contents answer after := by
  rcases seek_reaches .right (fun element => !element.isIgnored ignore) looks with
    ⟨found, moved, reaches, sought⟩
  rw [Side.move] at sought
  rw [child]
  simp only [looks.inside, sought, Option.bind_eq_bind, Option.bind_some]
  rcases found with _ | letter | inside
  · exact ⟨none, _, rfl, .barred reaches (by simp)⟩
  · exact ⟨none, _, rfl, .barred reaches (by simp)⟩
  · rcases reaches.exists_number with ⟨number, rfl, branch⟩
    have within := looks.wentInto branch (Int.le_refl (-1)) (by omega)
    rcases seek_reaches .right (·.isVisible ignore) within with ⟨child, inner, first, soughtInside⟩
    rw [Side.move] at soughtInside
    refine ⟨_, _, ?_, .entered reaches first⟩
    simp only [descend_focusOn looks, Option.bind_some, sibling, within.inside, soughtInside,
      looks.focusOn_wentInto, Option.bind_eq_bind]

end Descending

/-! ## Parent and child -/

/-- A visible module hangs off another one: it is the first on its level, and nothing
but ignored modules stands between the other one and its branch. -/
structure HangsOff (forest : Forest V) (ignore : List Symbol) (path : List Nat)
    (number branch child : Nat) (letter other : Module V) (contents inside : Forest V) : Prop where
  reached : forest.contentsAt? path = some contents
  upper : contents.VisibleAt ignore number letter
  before : number < branch
  between : ∀ (further : Nat) (element : Element V), contents[further]? = some element →
    number < further → further < branch → element.isIgnored ignore = true
  into : contents[branch]? = some (.branch inside)
  lower : inside.VisibleAt ignore child other
  first : ∀ earlier another, inside.VisibleAt ignore earlier another → child ≤ earlier

section Hanging

variable {forest contents inside : Forest V} {ignore : List Symbol} {path : List Nat}
  {number branch child : Nat} {letter other : Module V}

/-- From the child a climb comes to its parent. -/
theorem HangsOff.precedesLast
    (hangs : HangsOff forest ignore path number branch child letter other contents inside)
    {mark : Bookmark} {here : Nat} (level : mark.level = some (here + 1))
    (outer : mark.views[here]? = some ⟨path, branch⟩)
    (inner : mark.views[here + 1]? = some ⟨path ++ [branch], child⟩) :
    mark.PrecedesLast forest ignore here number letter := by
  have below := contentsAt?_concat hangs.reached hangs.into
  refine ⟨⟨here + 1, _, contents, level, Nat.le_succ here, outer, hangs.reached, ?_, hangs.upper⟩,
    ?_⟩
  · exact Int.ofNat_lt.mpr hangs.before
  · rintro at_ further another ⟨_, view, elements, same, inside, there, reached, before, visible⟩
    cases level.symm.trans same
    -- On the level of the child nothing comes before the child, and on the level around it only
    -- ignored modules come between the parent and the branch.
    by_cases top : at_ = here + 1
    · subst top
      cases inner.symm.trans there
      cases below.symm.trans reached
      have late := hangs.first further another visible
      dsimp only at before
      omega
    · by_cases close : at_ = here
      · subst close
        cases outer.symm.trans there
        cases hangs.reached.symm.trans reached
        refine Or.inr ⟨rfl, ?_⟩
        by_cases between : number < further
        · have hidden := hangs.between further _ visible.1 between (Int.ofNat_lt.mp before)
          exact absurd (List.contains_iff_mem.mp hidden) visible.2
        · exact Nat.le_of_not_lt between
      · exact Or.inl (by omega)

/-- A search for the parent finds it, and the focus comes to rest on it. -/
theorem HangsOff.finds_parent
    (hangs : HangsOff forest ignore path number branch child letter other contents inside)
    {mark : Bookmark} (wellFormed : mark.WellFormed forest) (fresh : mark.stale = false)
    {here : Nat} (level : mark.level = some (here + 1))
    (outer : mark.views[here]? = some ⟨path, branch⟩)
    (inner : mark.views[here + 1]? = some ⟨path ++ [branch], child⟩) :
    ∃ back, Finds forest ignore .parent mark (some letter) back ∧
      back.focused? = some ⟨path, number⟩ := by
  have last := hangs.precedesLast level outer inner
  rcases wellFormed.exists_looksFrom level with ⟨view, elements, looks⟩
  rcases climb_ends ignore wellFormed.views.within looks false with
    ⟨found, answer, after, -, across, ascends⟩
  have sought : mark.lookUp forest ignore .parent = some (answer, after) := by
    rw [lookUp, refresh_of_fresh fresh]
    exact across
  rcases ascends.of_last last with ⟨-, rfl, answered⟩
  rw [answered (Nat.ne_of_lt (Nat.lt_succ_self here))] at sought
  refine ⟨_, (wellFormed.finds sought).1, ?_⟩
  rw [focused?_climbedTo, outer]
  rfl

/-- When the walk has come past an element of a branch, lookups that start over are inside
that branch. -/
theorem WellFormed.resetContext_inside {mark : Bookmark} (wellFormed : mark.WellFormed forest)
    (passed : mark.passed? = some ⟨path ++ [branch], child⟩) :
    ∃ here, mark.resetContext.level = some (here + 1) ∧
      mark.resetContext.views[here]? = some ⟨path, branch⟩ ∧
      mark.resetContext.views[here + 1]? = some ⟨path ++ [branch], child⟩ := by
  rcases wellFormed.resetContext_along passed with ⟨views, level⟩
  rw [List.length_append, List.length_singleton] at level
  refine ⟨path.length, level, ?_, ?_⟩
  · rw [views, getElem?_viewsAlong]
    exact ⟨path, branch, [child], List.append_assoc path [branch] [child], rfl, rfl⟩
  · rw [views, getElem?_viewsAlong]
    exact ⟨path ++ [branch], child, [], rfl, List.length_append, rfl⟩

end Hanging

section Descending

variable {forest contents : Forest V} {ignore : List Symbol} {mark : Bookmark} {here : Nat}
  {view : View}

/-- A child that is found from a visible module hangs off it. -/
theorem Descends.hangsOff {number : Nat} {letter other : Module V} {after : Bookmark}
    (looks : mark.LooksFrom forest here view contents) (position : view.focus = number)
    (visible : contents.VisibleAt ignore number letter)
    (descends : Descends forest ignore mark here view contents (some other) after) :
    ∃ branch child inside,
      HangsOff forest ignore view.path number branch child letter other contents inside ∧
      after = mark.wentInto here view branch child := by
  generalize answered : some other = answer at descends
  cases descends with
  | barred => cases answered
  | @entered branch inside found inner reaches first =>
      rcases first.of_found answered.symm with ⟨child, rfl, rfl⟩
      refine ⟨branch, child, inside, ?_, rfl⟩
      cases reaches with
      | stopped into _ beyond nearest =>
      cases first with
      | stopped lower accepted _ nearestInside =>
      rw [position] at beyond nearest
      simp only [Side.Beyond] at beyond nearest nearestInside
      refine ⟨looks.reached, visible, by omega, ?_, into, ⟨lower, ?_⟩, ?_⟩
      · intro further element there after before
        by_cases ignored : element.isIgnored ignore = true
        · exact ignored
        · have accepted : (!element.isIgnored ignore) = true := by simpa using ignored
          have closer := nearest further element there (by omega) accepted
          omega
      · exact Element.isVisible_leaf_iff.mp accepted
      · intro earlier another unhidden
        have closer := nearestInside earlier _ unhidden.1 (by omega)
          (Element.isVisible_leaf_iff.mpr unhidden.2)
        omega

/-- What a lookup of a child comes to, and what a search for the parent comes to after it. -/
structure FindsChildren (forest : Forest V) (ignore : List Symbol) (mark : Bookmark)
    (here : Nat) (view : View) (contents : Forest V) : Prop where
  descends : ∃ answer after, Finds forest ignore .child mark answer after ∧
    Descends forest ignore mark.refresh here view contents answer after
  /-- From a child of the visible module that the focus has been on, a search for the parent
  leads back to that occurrence. -/
  returns : ∀ (number : Nat) (letter : Module V), view.focus = number →
    contents.VisibleAt ignore number letter →
    ∀ other after, Finds forest ignore .child mark (some other) after →
      ∃ back, Finds forest ignore .parent after (some letter) back ∧
        back.focused? = some ⟨view.path, number⟩
  /-- So it does from the child itself, whenever the walk has come to the visit of it and
  lookups start over. -/
  revisits : ∀ (number : Nat) (letter : Module V), view.focus = number →
    contents.VisibleAt ignore number letter →
    ∀ other after, Finds forest ignore .child mark (some other) after →
      ∃ occurrence, after.focused? = some occurrence ∧
        (∃ steps told met, start.performAll forest ignore (List.replicate (steps + 1) .next) =
            some (told ++ [.visited (.leaf other)], met) ∧ met.passed? = some occurrence) ∧
        ∀ calls told met, start.performAll forest ignore calls = some (told, met) →
          met.passed? = some occurrence →
          ∃ back, Finds forest ignore .parent met.resetContext (some letter) back ∧
            back.focused? = some ⟨view.path, number⟩

theorem WellFormed.findsChildren (wellFormed : mark.WellFormed forest)
    (looks : mark.refresh.LooksFrom forest here view contents) :
    FindsChildren forest ignore mark here view contents := by
  rcases child_descends ignore looks with ⟨answer, after, sought, descends⟩
  have finds : Finds forest ignore .child mark answer after ∧ after.WellFormed forest :=
    wellFormed.finds sought
  refine ⟨⟨answer, after, finds.1, descends⟩, ?_, ?_⟩
  · intro number letter position visible other after otherwise
    rcases finds.1.unique otherwise with ⟨rfl, rfl⟩
    rcases descends.hangsOff looks position visible with ⟨branch, child, inside, hangs, rfl⟩
    have views := looks.getElem?_wentInto branch child
    exact hangs.finds_parent finds.2 mark.stale_refresh rfl views.1 views.2
  · intro number letter position visible other after otherwise
    rcases finds.1.unique otherwise with ⟨rfl, rfl⟩
    rcases descends.hangsOff looks position visible with ⟨branch, child, inside, hangs, rfl⟩
    have views := looks.getElem?_wentInto branch child
    have below := contentsAt?_concat hangs.reached hangs.into
    refine ⟨⟨view.path ++ [branch], child⟩, views.2, exists_visit ignore below hangs.lower.1, ?_⟩
    intro calls told met made passed
    rcases (wellFormed_start forest).performAll ignore calls with ⟨_, _, madeToo, fits, -⟩
    cases made.symm.trans madeToo
    rcases fits.resetContext_inside passed with ⟨level, inside, outer, inner⟩
    exact hangs.finds_parent fits.resetContext.1 rfl inside outer inner

end Descending

/-- Wherever the lookups of a bookmark have got to, children are found from there. -/
structure KnowsChildren (forest : Forest V) (ignore : List Symbol) (mark : Bookmark) : Prop where
  onLevel : ∀ here, mark.refresh.level = some here →
    ∃ view contents, mark.refresh.LooksFrom forest here view contents ∧
      FindsChildren forest ignore mark here view contents

/-- Whatever has been asked of a cursor over a forest, and so of the bookmark that it is kept
as, a child is found on the next branch only, and its parent is where it has been found from. -/
theorem knowsChildren_performAll (forest : Forest V) (ignore : List Symbol)
    (calls : List Cursor.Call) :
    ∃ replies mark, start.performAll forest ignore calls = some (replies, mark) ∧
      Cursor.performAll ignore calls (.start forest) = (replies, mark.cursor forest) ∧
      mark.KnowsChildren forest ignore := by
  rcases (wellFormed_start forest).performAll ignore calls with ⟨replies, mark, made, fits, same⟩
  rw [cursor_start] at same
  refine ⟨replies, mark, made, same, ⟨?_⟩⟩
  intro here inside
  rcases fits.refresh.1.exists_looksFrom inside with ⟨view, contents, looks⟩
  exact ⟨view, contents, looks, fits.findsChildren looks⟩

end Bookmark
end LSystem
