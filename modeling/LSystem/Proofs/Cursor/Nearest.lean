import LSystem.Proofs.Cursor.Bookkeeping

namespace LSystem

/-!
# The nearest element

A lookup moves the focus of one level element by element and stops on the first
element that it accepts.  What it comes to can be said without any moving: it is
the accepted element nearest to the focus on the side that is searched, and if
there is none the focus is parked at the end of the level on that side.

Both sides are treated at once.  Main statements: a search of a level has a
result, and it is the nearest accepted element; a search for a parent has the
same result, and it has noted whether a branch stands in between.
-/

variable {V : Type}

/-- A module that is not ignored stands at a number. -/
def Forest.VisibleAt (ignore : List Symbol) (contents : Forest V) (number : Nat)
    (letter : Module V) : Prop :=
  contents[number]? = some (.leaf letter) ∧ letter.symbol ∉ ignore

theorem Element.isVisible_leaf_iff {ignore : List Symbol} {letter : Module V} :
    (Element.leaf letter).isVisible ignore = true ↔ letter.symbol ∉ ignore := by
  simp

/-- Only a module that is not ignored is visible. -/
theorem Element.exists_letter {ignore : List Symbol} {element : Element V}
    (visible : element.isVisible ignore = true) :
    ∃ letter, element = .leaf letter ∧ letter.symbol ∉ ignore := by
  rcases element with letter | inside
  · exact ⟨letter, rfl, Element.isVisible_leaf_iff.mp visible⟩
  · cases visible

/-! ## Sides -/

/-- The two sides of a focus. -/
inductive Side where
  | left
  | right
deriving DecidableEq

namespace Side

def opposite : Side → Side
  | .left => .right
  | .right => .left

/-- The axis along which the siblings on a side are looked up. -/
def axis : Side → Axis
  | .left => .previousSibling
  | .right => .nextSibling

/-- The element of a number lies on a side of a focus. -/
def Beyond (side : Side) (focus : Int) (number : Nat) : Prop :=
  match side with
  | .left => (number : Int) < focus
  | .right => focus < number

/-- Where the focus is when it has gone past the last element on a side. -/
def parking (side : Side) (contents : Forest V) : Int :=
  match side with
  | .left => -1
  | .right => contents.length

/-- One element further on a side. -/
def further (side : Side) (focus : Int) : Int :=
  match side with
  | .left => focus - 1
  | .right => focus + 1

/-- The way in which a bookmark goes through a level on a side. -/
def move (side : Side) (forest : Forest V) (level : Nat) : Bookmark.Move V :=
  match side with
  | .left => Bookmark.leftward forest level
  | .right => Bookmark.rightward forest level

/-- Where a search on one side of a focus ends: on the accepted element that is
nearest to the focus, or else parked at the end of the level. -/
inductive Reaches (side : Side) (accepts : Element V → Bool) (contents : Forest V) (focus : Int) :
    Option (Element V) → Int → Prop where
  | stopped {number : Nat} {element : Element V} (here : contents[number]? = some element)
      (accepted : accepts element = true) (beyond : side.Beyond focus number)
      (nearest : ∀ (other : Nat) (candidate : Element V), contents[other]? = some candidate →
        side.Beyond focus other → accepts candidate = true →
        ((number : Int) - focus).natAbs ≤ ((other : Int) - focus).natAbs) :
      Reaches side accepts contents focus (some element) number
  | parked
      (refused : ∀ (other : Nat) (candidate : Element V), contents[other]? = some candidate →
        side.Beyond focus other → accepts candidate = false) :
      Reaches side accepts contents focus none (side.parking contents)

/-- A branch stands strictly between a focus and where it is moved on a side. -/
def Crosses (side : Side) (contents : Forest V) (focus moved : Int) : Prop :=
  ∃ (number : Nat) (inside : Forest V), contents[number]? = some (.branch inside) ∧
    side.Beyond focus number ∧ side.opposite.Beyond moved number

namespace Reaches

variable {side : Side} {accepts : Element V → Bool} {contents : Forest V} {focus moved : Int}
  {number : Nat} {element : Element V} {found : Option (Element V)}

/-- The element next to the focus is the nearest one. -/
theorem next (here : contents[number]? = some element)
    (position : (number : Int) = side.further focus) (accepted : accepts element = true) :
    side.Reaches accepts contents focus (some element) number := by
  apply Reaches.stopped here accepted
  · cases side <;> simp only [Beyond, further] at position ⊢ <;> omega
  · intro other candidate there beyond also
    cases side <;> simp only [Beyond, further] at position beyond <;> omega

/-- An element that is refused can be left out of a search. -/
theorem skip (here : contents[number]? = some element)
    (position : (number : Int) = side.further focus) (refused : accepts element = false)
    (beyond : side.Reaches accepts contents number found moved) :
    side.Reaches accepts contents focus found moved := by
  -- Whatever lies beyond the focus is the refused element or lies beyond that one.
  have passed : ∀ (other : Nat) (candidate : Element V), contents[other]? = some candidate →
      side.Beyond focus other → accepts candidate = true → side.Beyond number other := by
    intro other candidate there beyondFocus accepted
    by_cases same : other = number
    · subst same
      cases here.symm.trans there
      rw [refused] at accepted
      cases accepted
    · cases side <;> simp only [Beyond, further] at position beyondFocus ⊢ <;> omega
  cases beyond with
  | @stopped target _ there accepted beyond nearest =>
      apply Reaches.stopped there accepted
      · cases side <;> simp only [Beyond, further] at position beyond ⊢ <;> omega
      · intro other candidate at_ beyondFocus also
        have further := passed other candidate at_ beyondFocus also
        have closer := nearest other candidate at_ further also
        cases side <;> simp only [Beyond, Side.further] at position beyond further <;> omega
  | parked nothing =>
      apply Reaches.parked
      intro other candidate there beyondFocus
      by_cases accepted : accepts candidate = true
      · exact nothing other candidate there (passed other candidate there beyondFocus accepted)
      · exact Bool.eq_false_iff.mpr accepted

/-- A search ends beyond the focus, be it on an element or parked. -/
theorem opposite_beyond (reaches : side.Reaches accepts contents number found moved)
    (inside : number < contents.length) : side.opposite.Beyond moved number := by
  cases reaches with
  | stopped _ _ beyond => cases side <;> exact beyond
  | parked => cases side <;> simp only [opposite, Beyond, parking] <;> omega

/-- A search ends in one way only. -/
theorem unique (reaches : side.Reaches accepts contents focus found moved)
    {other : Option (Element V)} {otherMoved : Int}
    (otherwise : side.Reaches accepts contents focus other otherMoved) :
    found = other ∧ moved = otherMoved := by
  cases reaches with
  | @stopped number element here accepted beyond nearest =>
      cases otherwise with
      | @stopped second candidate there also beyondToo closest =>
          have first := nearest second candidate there beyondToo also
          have last := closest number element here beyond accepted
          have same : number = second := by
            cases side <;> simp only [Beyond] at beyond beyondToo <;> omega
          subst same
          cases here.symm.trans there
          exact ⟨rfl, rfl⟩
      | parked refused =>
          rw [refused number element here beyond] at accepted
          cases accepted
  | parked refused =>
      cases otherwise with
      | @stopped second candidate there also beyondToo closest =>
          rw [refused second candidate there beyondToo] at also
          cases also
      | parked _ => exact ⟨rfl, rfl⟩

/-- An element that a search stops on has the number that the focus is moved to. -/
theorem exists_number (reaches : side.Reaches accepts contents focus (some element) moved) :
    ∃ number : Nat, moved = number ∧ contents[number]? = some element := by
  cases reaches with
  | stopped here => exact ⟨_, rfl, here⟩

/-- A search ends on the level. -/
theorem bounds (reaches : side.Reaches accepts contents focus found moved) :
    -1 ≤ moved ∧ moved ≤ contents.length := by
  cases reaches with
  | stopped here =>
      have inside := (List.getElem?_eq_some_iff.mp here).1
      omega
  | parked => cases side <;> simp only [parking] <;> omega

end Reaches

section Crossing

variable {side : Side} {contents : Forest V} {focus : Int} {number : Nat} {element : Element V}

/-- There is nothing between a focus and the element next to it. -/
theorem not_crosses_next (position : (number : Int) = side.further focus) :
    ¬ side.Crosses contents focus number := by
  rintro ⟨other, inside, -, beyond, before⟩
  cases side <;> simp only [Beyond, further, opposite] at position beyond before <;> omega

/-- What a search comes past is the element next to the focus and what lies
beyond that one. -/
theorem crosses_iff (here : contents[number]? = some element)
    (position : (number : Int) = side.further focus) {accepts : Element V → Bool}
    {found : Option (Element V)} {moved : Int}
    (reaches : side.Reaches accepts contents number found moved) :
    side.Crosses contents focus moved ↔
      element.isBranch = true ∨ side.Crosses contents number moved := by
  constructor
  · rintro ⟨other, inside, there, beyond, before⟩
    by_cases same : other = number
    · subst same
      cases here.symm.trans there
      exact Or.inl rfl
    · refine Or.inr ⟨other, inside, there, ?_, before⟩
      cases side <;> simp only [Beyond, further] at position beyond ⊢ <;> omega
  · intro crossed
    rcases crossed with branch | ⟨other, inside, there, beyond, before⟩
    · rcases element with letter | inside
      · cases branch
      · refine ⟨number, inside, here, ?_, ?_⟩
        · cases side <;> simp only [Beyond, further] at position ⊢ <;> omega
        · exact reaches.opposite_beyond (List.getElem?_eq_some_iff.mp here).1
    · refine ⟨other, inside, there, ?_, before⟩
      cases side <;> simp only [Beyond, further] at position beyond ⊢ <;> omega

end Crossing

end Side

/-! ## Moving the focus of a level -/

namespace Bookmark

@[simp]
theorem focusOn_focusOn (mark : Bookmark) (level : Nat) (first second : Int) :
    (mark.focusOn level first).focusOn level second = mark.focusOn level second := by
  simp only [focusOn, List.modify_modify_eq]
  rfl

@[simp]
theorem getElem?_focusOn (mark : Bookmark) (level : Nat) (focus : Int) (index : Nat) :
    (mark.focusOn level focus).views[index]? =
      (mark.views[index]?).map fun view => if level = index then { view with focus } else view := by
  rw [focusOn, List.getElem?_modify]
  rfl

theorem focusOn_self {mark : Bookmark} {level : Nat} {view : View}
    (here : mark.views[level]? = some view) : mark.focusOn level view.focus = mark := by
  have same : (mark.focusOn level view.focus).views = mark.views := by
    apply List.ext_getElem?
    intro index
    by_cases chosen : level = index
    · subst chosen
      simp [here]
    · simp [chosen]
  rcases mark with ⟨walk, views, at_, stale⟩
  exact congrArg (fun views => (⟨walk, views, at_, stale⟩ : Bookmark)) same

/-- The element in focus on the level of the lookups. -/
def focused? (mark : Bookmark) : Option View := mark.level.bind (mark.views[·]?)

/-! ## Searching a level -/

/-- The lookups of a bookmark start on a level, from a focus that is on an element
of that level or at one of its ends. -/
structure LooksFrom (forest : Forest V) (mark : Bookmark) (level : Nat) (view : View)
    (contents : Forest V) : Prop where
  inside : mark.level = some level
  here : mark.views[level]? = some view
  reached : forest.contentsAt? view.path = some contents
  low : -1 ≤ view.focus
  high : view.focus ≤ contents.length

section Levels

variable {forest contents : Forest V} {mark : Bookmark} {level : Nat} {view : View}

theorem LooksFrom.focusOn (looks : mark.LooksFrom forest level view contents) {focus : Int}
    (low : -1 ≤ focus) (high : focus ≤ contents.length) :
    (mark.focusOn level focus).LooksFrom forest level { view with focus } contents :=
  ⟨looks.inside, view_focusOn looks.here focus, looks.reached, low, high⟩

/-- Where there are views for a level, there is a focus to look from. -/
theorem exists_looksFrom (within : ∀ view ∈ mark.views, view.Within forest)
    (bound : level < mark.views.length) (inside : mark.level = some level) :
    ∃ view contents, mark.LooksFrom forest level view contents := by
  have here : mark.views[level]? = some mark.views[level] := List.getElem?_eq_getElem bound
  rcases within _ (List.mem_of_getElem? here) with ⟨contents, reached, low, high⟩
  exact ⟨mark.views[level], contents, inside, here, reached, low, high⟩

theorem WellFormed.exists_looksFrom (wellFormed : mark.WellFormed forest)
    (inside : mark.level = some level) :
    ∃ view contents, mark.LooksFrom forest level view contents :=
  Bookmark.exists_looksFrom wellFormed.views.within (wellFormed.views.level_lt level inside) inside

/-- One element on a side of the focus is reached, or there is none left. -/
theorem run_move (side : Side) (looks : mark.LooksFrom forest level view contents) :
    (∃ (number : Nat) (element : Element V), contents[number]? = some element ∧
      (number : Int) = side.further view.focus ∧
      (side.move forest level).run mark = some (some element, mark.focusOn level number)) ∨
    ((∀ (number : Nat) (element : Element V), contents[number]? = some element →
        ¬ side.Beyond view.focus number) ∧
      (side.move forest level).run mark =
        some (none, mark.focusOn level (side.parking contents))) := by
  rcases looks with ⟨-, here, reached, low, high⟩
  cases side with
  | left =>
      rw [Side.move, leftward_run, retreat, here]
      simp only [Option.bind_eq_bind, Option.bind_some]
      by_cases first : view.focus ≤ 0
      · refine Or.inr ⟨?_, by rw [if_pos first]; rfl⟩
        intro number element there beyond
        simp only [Side.Beyond] at beyond
        omega
      · obtain ⟨number, position⟩ : ∃ number : Nat, view.focus - 1 = number :=
          ⟨(view.focus - 1).toNat, by omega⟩
        have element : contents[number]? = some contents[number] :=
          List.getElem?_eq_getElem (by omega)
        refine Or.inl ⟨number, contents[number], element, position.symm, ?_⟩
        rw [if_neg first, reached, position]
        simp only [Option.bind_some, Int.toNat?, element]
  | right =>
      rw [Side.move, rightward_run, advance, here]
      simp only [Option.bind_eq_bind, Option.bind_some, reached]
      obtain ⟨number, position⟩ : ∃ number : Nat, view.focus + 1 = number :=
        ⟨(view.focus + 1).toNat, by omega⟩
      rw [position]
      simp only [Int.toNat?, Option.bind_some]
      by_cases last : contents.length ≤ number
      · refine Or.inr ⟨?_, by rw [if_pos last]; rfl⟩
        intro other element there beyond
        have inside := (List.getElem?_eq_some_iff.mp there).1
        simp only [Side.Beyond] at beyond
        omega
      · have element : contents[number]? = some contents[number] :=
          List.getElem?_eq_getElem (by omega)
        refine Or.inl ⟨number, contents[number], element, position.symm, ?_⟩
        rw [if_neg last, element]

/-- A search of a level ends where the nearest accepted element is. -/
theorem seek_reaches (side : Side) (accepts : Element V → Bool)
    (looks : mark.LooksFrom forest level view contents) :
    ∃ found moved, side.Reaches accepts contents view.focus found moved ∧
      seek (side.move forest level) accepts mark = some (found, mark.focusOn level moved) := by
  -- Every round makes the number of remaining moves smaller.
  induction rounds : (side.move forest level).remaining mark using Nat.strongRecOn
    generalizing mark view with
  | ind remaining inductionHypothesis =>
      rw [seek_eq]
      rcases run_move side looks with
        ⟨number, element, there, position, moved⟩ | ⟨nothing, moved⟩
      · rw [moved]
        simp only [Option.bind_eq_bind, Option.bind_some]
        by_cases accepted : accepts element = true
        · rw [if_pos accepted]
          exact ⟨some element, number, .next there position accepted, rfl⟩
        · rw [if_neg accepted]
          have inside := (List.getElem?_eq_some_iff.mp there).1
          have fewer := (side.move forest level).remaining_lt moved
          rw [rounds] at fewer
          rcases inductionHypothesis _ fewer (looks.focusOn (by omega) (by omega)) rfl with
            ⟨found, last, reaches, sought⟩
          refine ⟨found, last, .skip there position (Bool.eq_false_iff.mpr accepted) reaches, ?_⟩
          simp [sought]
      · rw [moved]
        refine ⟨none, side.parking contents, .parked ?_, rfl⟩
        intro other candidate there beyond
        exact absurd beyond (nothing other candidate there)

/-- A search for a parent ends where a search for a visible module does, and it
has noted whether it has come past a branch. -/
theorem seekAcross_reaches (side : Side) (ignore : List Symbol) (crossed : Bool)
    (looks : mark.LooksFrom forest level view contents) :
    ∃ found moved noted, side.Reaches (·.isVisible ignore) contents view.focus found moved ∧
      seek (side.move forest level) (·.isVisible ignore) mark =
        some (found, mark.focusOn level moved) ∧
      seekAcross ignore (side.move forest level) crossed mark =
        some (noted, found.bind (·.letter?), mark.focusOn level moved) ∧
      (noted = true ↔ crossed = true ∨ side.Crosses contents view.focus moved) := by
  induction rounds : (side.move forest level).remaining mark using Nat.strongRecOn
    generalizing mark view crossed with
  | ind remaining inductionHypothesis =>
      rw [seek_eq]
      rcases run_move side looks with
        ⟨number, element, there, position, moved⟩ | ⟨nothing, moved⟩
      · rw [moved]
        simp only [Option.bind_eq_bind, Option.bind_some]
        cases visible : element.isVisible ignore with
        | true =>
            refine ⟨some element, number, crossed, .next there position visible, rfl, ?_, ?_⟩
            · rw [seekAcross_of_visible moved visible, Option.bind_some]
            · exact (or_iff_left (Side.not_crosses_next position)).symm
        | false =>
            have inside := (List.getElem?_eq_some_iff.mp there).1
            have fewer := (side.move forest level).remaining_lt moved
            rw [rounds] at fewer
            rcases inductionHypothesis _ fewer (crossed || element.isBranch)
                (looks.focusOn (by omega) (by omega)) rfl with
              ⟨found, last, noted, reaches, sought, across, crossing⟩
            refine ⟨found, last, noted, .skip there position visible reaches, ?_, ?_, ?_⟩
            · simp [sought]
            · simp [seekAcross_of_hidden moved visible, across]
            · rw [crossing, Side.crosses_iff there position reaches, Bool.or_eq_true, or_assoc]
      · rw [moved]
        refine ⟨none, side.parking contents, crossed, .parked ?_, rfl, ?_, ?_⟩
        · intro other candidate there beyond
          exact absurd beyond (nothing other candidate there)
        · rw [seekAcross_eq, moved]
          rfl
        · have uncrossed : ¬ side.Crosses contents view.focus (side.parking contents) := by
            rintro ⟨other, inside, there, beyond, -⟩
            exact nothing other _ there beyond
          exact (or_iff_left uncrossed).symm

end Levels

/-! ## Lookups -/

/-- A lookup on a bookmark has a result, and the cursor that the bookmark stands for
comes to the same. -/
structure Finds (forest : Forest V) (ignore : List Symbol) (axis : Axis) (mark : Bookmark)
    (letter : Option (Module V)) (after : Bookmark) : Prop where
  byBookmark : mark.lookUp forest ignore axis = some (letter, after)
  byCursor : (mark.cursor forest).lookUp ignore axis = (letter, after.cursor forest)

section Finding

variable {forest : Forest V} {ignore : List Symbol} {axis : Axis} {mark after : Bookmark}
  {letter : Option (Module V)}

/-- There is only one result. -/
theorem Finds.unique (finds : Finds forest ignore axis mark letter after)
    {other : Option (Module V)} {otherAfter : Bookmark}
    (otherwise : Finds forest ignore axis mark other otherAfter) :
    letter = other ∧ after = otherAfter := by
  have same := finds.byBookmark.symm.trans otherwise.byBookmark
  exact Prod.mk.inj (Option.some.inj same)

/-- What a bookmark in order finds, its cursor finds too. -/
theorem WellFormed.finds (wellFormed : mark.WellFormed forest)
    (result : mark.lookUp forest ignore axis = some (letter, after)) :
    Finds forest ignore axis mark letter after ∧ after.WellFormed forest := by
  rcases wellFormed.lookUp ignore axis with ⟨known, reached, known_eq, fits, same⟩
  cases result.symm.trans known_eq
  exact ⟨⟨result, same⟩, fits⟩

theorem refresh_of_fresh (fresh : mark.stale = false) : mark.refresh = mark := by
  rw [refresh, fresh]
  rfl

@[simp]
theorem stale_refresh (mark : Bookmark) : mark.refresh.stale = false := by
  rw [refresh]
  cases stale : mark.stale with
  | false => exact stale
  | true => rfl

end Finding

end Bookmark
end LSystem
