import LSystem.Proofs.Cursor.Nearest

namespace LSystem

/-!
# Siblings

Siblings are looked up on one level, to the left or to the right of a focus that
may also be parked at either end.  Main statement: whatever has been asked before,
a lookup finds the nearest visible module on its side and moves the focus there, or
parks it at the end of the level; a lookup on the other side leads back to the
module that the focus has been on, and from the end of a level to its outermost
visible module.
-/

variable {V : Type}

namespace Side.Reaches

variable {side : Side} {accepts : Element V → Bool} {contents : Forest V}

/-- From the nearest accepted element the way back leads to the element that the
search has started from, if that one is accepted too. -/
theorem back {start number : Nat} {origin element : Element V}
    (reaches : side.Reaches accepts contents start (some element) number)
    (here : contents[start]? = some origin) (accepted : accepts origin = true) :
    side.opposite.Reaches accepts contents number (some origin) start := by
  cases reaches with
  | stopped _ _ beyond nearest =>
      apply Reaches.stopped here accepted
      · cases side <;> exact beyond
      · intro other candidate there beyondNumber also
        by_cases between : side.Beyond start other
        · have closer := nearest other candidate there between also
          cases side <;> simp only [Beyond, opposite] at beyond between beyondNumber <;> omega
        · cases side <;> simp only [Beyond, opposite] at beyond between beyondNumber <;> omega

/-- From where the focus is parked the other side begins with the outermost accepted
element. -/
theorem turn {number : Nat} {element : Element V} (here : contents[number]? = some element)
    (accepted : accepts element = true)
    (outermost : ∀ (other : Nat) (candidate : Element V), contents[other]? = some candidate →
      accepts candidate = true → ¬ side.Beyond number other) :
    side.opposite.Reaches accepts contents (side.parking contents) (some element) number := by
  have inside := (List.getElem?_eq_some_iff.mp here).1
  apply Reaches.stopped here accepted
  · cases side <;> simp only [Beyond, opposite, parking] <;> omega
  · intro other candidate there beyond also
    have further := outermost other candidate there also
    cases side <;> simp only [Beyond, opposite, parking] at beyond further ⊢ <;> omega

/-- There is nothing beyond where the focus is parked. -/
theorem remain :
    side.Reaches accepts contents (side.parking contents) none (side.parking contents) := by
  apply Reaches.parked
  intro other candidate there beyond
  have inside := (List.getElem?_eq_some_iff.mp there).1
  cases side <;> simp only [Beyond, parking] at beyond <;> omega

section Answers

variable {ignore : List Symbol} {focus moved : Int} {found : Option (Element V)}
  (reaches : side.Reaches (·.isVisible ignore) contents focus found moved)
include reaches

/-- The answer of a lookup is a module that it has stopped on. -/
theorem of_found {letter : Module V} (answer : found.bind (·.letter?) = some letter) :
    ∃ number : Nat, found = some (.leaf letter) ∧ moved = number := by
  cases reaches with
  | @stopped number element here accepted beyond nearest =>
      rcases Element.exists_letter accepted with ⟨other, rfl, -⟩
      cases answer
      exact ⟨number, rfl, rfl⟩
  | parked => cases answer

/-- Without an answer the focus has been parked. -/
theorem of_missing (answer : found.bind (·.letter?) = none) :
    found = none ∧ moved = side.parking contents := by
  cases reaches with
  | @stopped number element here accepted beyond nearest =>
      rcases Element.exists_letter accepted with ⟨letter, rfl, -⟩
      cases answer
  | parked => exact ⟨rfl, rfl⟩

end Answers

end Side.Reaches

namespace Bookmark

section Siblings

variable {forest contents : Forest V} {ignore : List Symbol} {mark : Bookmark} {level : Nat}
  {view : View}

/-- A sibling lookup comes to where a search of its side ends. -/
theorem WellFormed.finds_sibling (wellFormed : mark.WellFormed forest)
    (looks : mark.refresh.LooksFrom forest level view contents) {side : Side}
    {found : Option (Element V)} {moved : Int}
    (reaches : side.Reaches (·.isVisible ignore) contents view.focus found moved) :
    Finds forest ignore side.axis mark (found.bind (·.letter?))
      (mark.refresh.focusOn level moved) := by
  rcases seek_reaches side (·.isVisible ignore) looks with ⟨found, moved, ends, sought⟩
  rcases ends.unique reaches with ⟨rfl, rfl⟩
  have along : mark.lookUp forest ignore side.axis =
      sibling ignore (side.move forest) mark.refresh := by
    cases side <;> rfl
  apply And.left
  apply wellFormed.finds
  rw [along, sibling]
  simp only [looks.inside, sought, Option.bind_eq_bind, Option.bind_some]

/-- The same for a lookup that follows another one. -/
theorem WellFormed.finds_sibling_after (wellFormed : mark.WellFormed forest)
    (looks : mark.refresh.LooksFrom forest level view contents) {first second : Side}
    {found further : Option (Element V)} {moved last : Int}
    (reaches : first.Reaches (·.isVisible ignore) contents view.focus found moved)
    (onward : second.Reaches (·.isVisible ignore) contents moved further last) :
    Finds forest ignore second.axis (mark.refresh.focusOn level moved)
      (further.bind (·.letter?)) (mark.refresh.focusOn level last) := by
  have fits := (wellFormed.finds (wellFormed.finds_sibling looks reaches).byBookmark).2
  have moves : (mark.refresh.focusOn level moved).refresh = mark.refresh.focusOn level moved :=
    refresh_of_fresh mark.stale_refresh
  have looksOn := looks.focusOn reaches.bounds.1 reaches.bounds.2
  rw [← moves] at looksOn
  have finds := fits.finds_sibling looksOn onward
  rw [moves, focusOn_focusOn] at finds
  exact finds

/-- What a lookup of siblings on one side of a focus comes to, and what one on the
other side comes to after it. -/
structure FindsSiblings (forest : Forest V) (ignore : List Symbol) (mark : Bookmark)
    (level : Nat) (focus : Int) (contents : Forest V) (side : Side) : Prop where
  /-- The nearest visible module of the level on that side comes into focus, or the
  focus is parked.  Nothing else is moved. -/
  nearest : ∃ found moved, side.Reaches (·.isVisible ignore) contents focus found moved ∧
    Finds forest ignore side.axis mark (found.bind (·.letter?)) (mark.refresh.focusOn level moved)
  stays : ∀ letter after, Finds forest ignore side.axis mark letter after →
    after.level = some level
  /-- The other side leads back to the visible module that the focus has been on. -/
  returns : ∀ (number : Nat) (letter : Module V), focus = number →
    contents.VisibleAt ignore number letter →
    ∀ other after, Finds forest ignore side.axis mark (some other) after →
      Finds forest ignore side.opposite.axis after (some letter) mark.refresh
  /-- After a failure further lookups on the same side fail as well and change nothing. -/
  fails : ∀ after, Finds forest ignore side.axis mark none after →
    Finds forest ignore side.axis after none after
  /-- Then the other side begins with the outermost visible module of the level. -/
  turns : ∀ after, Finds forest ignore side.axis mark none after →
    ∀ (number : Nat) (letter : Module V), contents.VisibleAt ignore number letter →
      (∀ other another, contents.VisibleAt ignore other another → ¬ side.Beyond number other) →
      Finds forest ignore side.opposite.axis after (some letter)
        (mark.refresh.focusOn level number)

/-- The siblings on either side are found from every focus on a level. -/
theorem WellFormed.findsSiblings (wellFormed : mark.WellFormed forest)
    (looks : mark.refresh.LooksFrom forest level view contents) (side : Side) :
    FindsSiblings forest ignore mark level view.focus contents side := by
  rcases seek_reaches side (·.isVisible ignore) looks with ⟨found, moved, reaches, -⟩
  have finds := wellFormed.finds_sibling looks reaches
  refine ⟨⟨found, moved, reaches, finds⟩, ?_, ?_, ?_, ?_⟩
  · intro letter after otherwise
    rw [(otherwise.unique finds).2]
    exact looks.inside
  · intro number letter position visible other after otherwise
    rcases finds.unique otherwise with ⟨answer, rfl⟩
    rcases reaches.of_found answer with ⟨reached, rfl, rfl⟩
    have accepted := Element.isVisible_leaf_iff.mpr visible.2
    rw [position] at reaches
    have back := reaches.back visible.1 accepted
    rw [← position] at reaches back
    have returned := wellFormed.finds_sibling_after looks reaches back
    rw [focusOn_self looks.here] at returned
    exact returned
  · intro after otherwise
    rcases finds.unique otherwise with ⟨answer, rfl⟩
    rcases reaches.of_missing answer with ⟨rfl, rfl⟩
    exact wellFormed.finds_sibling_after looks reaches Side.Reaches.remain
  · intro after otherwise number letter visible outermost
    rcases finds.unique otherwise with ⟨answer, rfl⟩
    rcases reaches.of_missing answer with ⟨rfl, rfl⟩
    have first : ∀ (other : Nat) (candidate : Element V), contents[other]? = some candidate →
        candidate.isVisible ignore = true → ¬ side.Beyond number other := by
      intro other candidate there accepted
      rcases Element.exists_letter accepted with ⟨another, rfl, unhidden⟩
      exact outermost other another ⟨there, unhidden⟩
    have accepted := Element.isVisible_leaf_iff.mpr visible.2
    exact wellFormed.finds_sibling_after looks reaches (.turn visible.1 accepted first)

end Siblings

/-- Wherever the lookups of a bookmark have got to, siblings are found from there. -/
structure KnowsSiblings (forest : Forest V) (ignore : List Symbol) (mark : Bookmark) : Prop where
  onLevel : ∀ level, mark.refresh.level = some level →
    ∃ view contents, mark.refresh.LooksFrom forest level view contents ∧
      ∀ side, FindsSiblings forest ignore mark level view.focus contents side

/-- Whatever has been asked of a cursor over a forest, and so of the bookmark that it
is kept as, the lookups of siblings are inverse to each other. -/
theorem knowsSiblings_performAll (forest : Forest V) (ignore : List Symbol)
    (calls : List Cursor.Call) :
    ∃ replies mark, start.performAll forest ignore calls = some (replies, mark) ∧
      Cursor.performAll ignore calls (.start forest) = (replies, mark.cursor forest) ∧
      mark.KnowsSiblings forest ignore := by
  rcases (wellFormed_start forest).performAll ignore calls with ⟨replies, mark, made, fits, same⟩
  rw [cursor_start] at same
  refine ⟨replies, mark, made, same, ⟨?_⟩⟩
  intro level inside
  rcases fits.refresh.1.exists_looksFrom inside with ⟨view, contents, looks⟩
  exact ⟨view, contents, looks, fits.findsSiblings looks⟩

end Bookmark
end LSystem
