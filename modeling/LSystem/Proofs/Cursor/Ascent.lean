import LSystem.Proofs.Cursor.Nearest

namespace LSystem

/-!
# Looking upward

A lookup that climbs searches its level to the left, and when nothing is left there
it goes on with the level around, from the branch that it comes out of.  So it looks
for the last visible module before the focus, on the innermost level that has one.

A search for a parent is written as a loop of its own.  Main statements: it goes the
same way and ends in the same place, and it withholds a module that is only a
sibling, which is one on the level of the start with no branch in between; after a
climb past the outermost level nothing is found until the views are put back.
-/

variable {V : Type}

/-- A call after which lookups start over from the walk.  A step does so only if the
walk goes on. -/
def Cursor.Call.renews (goesOn : Bool) : Cursor.Call → Bool
  | .hasNext => false
  | .next => goesOn
  | .resetContext => true
  | .lookUp _ => false
  | .navigate direction => direction.fromOrigin

namespace Bookmark

/-! ## Modules before the focus -/

/-- A visible module stands before the focus of a level, be it the level of the
lookups or one around it. -/
def Precedes (forest : Forest V) (ignore : List Symbol) (mark : Bookmark) (level number : Nat)
    (letter : Module V) : Prop :=
  ∃ here view contents, mark.level = some here ∧ level ≤ here ∧
    mark.views[level]? = some view ∧ forest.contentsAt? view.path = some contents ∧
    (number : Int) < view.focus ∧ contents.VisibleAt ignore number letter

/-- The last one of them, on the innermost level that has any. -/
structure PrecedesLast (forest : Forest V) (ignore : List Symbol) (mark : Bookmark)
    (level number : Nat) (letter : Module V) : Prop where
  precedes : mark.Precedes forest ignore level number letter
  last : ∀ outer other another, mark.Precedes forest ignore outer other another →
    outer < level ∨ outer = level ∧ other ≤ number

/-! ## Levels given up -/

/-- Parks the focus of the levels from one to another in front of them. -/
def exhaust (lowest highest : Nat) (mark : Bookmark) : Bookmark :=
  { mark with
    views := mark.views.mapIdx fun index view =>
      if lowest ≤ index ∧ index ≤ highest then { view with focus := -1 } else view }

/-- The lookups have come from a level to an element of that level or of one around
it, and all levels on the way are exhausted. -/
def climbedTo (here level number : Nat) (mark : Bookmark) : Bookmark :=
  { (mark.exhaust (level + 1) here).focusOn level number with level := some level }

/-- The lookups have come past the outermost level. -/
def climbedOut (here : Nat) (mark : Bookmark) : Bookmark :=
  { mark.exhaust 0 here with level := none }

/-- A level is given up, and the one around it is next. -/
def outside (here : Nat) (mark : Bookmark) : Bookmark :=
  { mark.focusOn here (-1) with level := outward here }

@[simp]
theorem getElem?_exhaust (lowest highest : Nat) (mark : Bookmark) (index : Nat) :
    (mark.exhaust lowest highest).views[index]? = (mark.views[index]?).map fun view =>
      if lowest ≤ index ∧ index ≤ highest then { view with focus := -1 } else view :=
  List.getElem?_mapIdx

theorem views_exhaust_of_lt {lowest highest : Nat} (nothing : highest < lowest)
    (mark : Bookmark) : (mark.exhaust lowest highest).views = mark.views := by
  apply List.ext_getElem?
  intro index
  have outside : ¬ (lowest ≤ index ∧ index ≤ highest) := by omega
  simp [outside]

/-- The last level to be given up may as well be given up first. -/
theorem views_exhaust_outside {lowest highest : Nat} (below : lowest ≤ highest + 1)
    (mark : Bookmark) :
    ((mark.outside (highest + 1)).exhaust lowest highest).views =
      (mark.exhaust lowest (highest + 1)).views := by
  apply List.ext_getElem?
  intro index
  rw [getElem?_exhaust, outside, getElem?_focusOn, getElem?_exhaust, Option.map_map]
  congr 1
  funext view
  dsimp only [Function.comp]
  by_cases top : highest + 1 = index
  · rw [if_pos top, if_neg (by omega), if_pos (by omega)]
  · rw [if_neg top]
    by_cases inside : lowest ≤ index ∧ index ≤ highest
    · rw [if_pos inside, if_pos (by omega)]
    · rw [if_neg inside, if_neg (by omega)]

section Climbing

variable {forest contents : Forest V} {ignore : List Symbol} {mark : Bookmark}
  {here level number : Nat} {view : View}

theorem climbedTo_here (inside : mark.level = some here) (number : Nat) :
    mark.climbedTo here here number = mark.focusOn here number := by
  have views := views_exhaust_of_lt (Nat.lt_succ_self here) mark
  rw [climbedTo, focusOn, focusOn, views, ← inside]
  rfl

theorem climbedTo_outside (below : level ≤ here) (mark : Bookmark) (number : Nat) :
    (mark.outside (here + 1)).climbedTo here level number =
      mark.climbedTo (here + 1) level number := by
  have views := views_exhaust_outside (Nat.succ_le_succ below) mark
  rw [climbedTo, climbedTo, focusOn, focusOn, views]
  rfl

theorem focused?_climbedTo (mark : Bookmark) (here level number : Nat) :
    (mark.climbedTo here level number).focused? =
      (mark.views[level]?).map fun view => { view with focus := (number : Int) } := by
  have focused : (mark.climbedTo here level number).focused? =
      ((mark.exhaust (level + 1) here).focusOn level number).views[level]? := rfl
  rw [focused, getElem?_focusOn, getElem?_exhaust, Option.map_map]
  congr 1
  funext view
  dsimp only [Function.comp]
  rw [if_pos rfl, if_neg (by omega)]

theorem climbedOut_zero (mark : Bookmark) : mark.outside 0 = mark.climbedOut 0 := by
  have views : (mark.focusOn 0 (-1)).views = (mark.exhaust 0 0).views := by
    apply List.ext_getElem?
    intro index
    rw [getElem?_focusOn, getElem?_exhaust]
    congr 1
    funext view
    by_cases first : 0 = index
    · rw [if_pos first, if_pos (by omega)]
    · rw [if_neg first, if_neg (by omega)]
  exact congrArg (fun views => (⟨mark.walk, views, none, mark.stale⟩ : Bookmark)) views

theorem climbedOut_outside (mark : Bookmark) :
    (mark.outside (here + 1)).climbedOut here = mark.climbedOut (here + 1) := by
  have views := views_exhaust_outside (Nat.zero_le (here + 1)) mark
  rw [climbedOut, climbedOut, views]
  rfl

/-! ## Climbing -/

/-- On the level of the lookups only the focus there counts. -/
theorem LooksFrom.precedes_iff (looks : mark.LooksFrom forest here view contents)
    {letter : Module V} :
    mark.Precedes forest ignore here number letter ↔
      (number : Int) < view.focus ∧ contents.VisibleAt ignore number letter := by
  constructor
  · rintro ⟨_, other, others, -, -, there, reached, before, visible⟩
    cases looks.here.symm.trans there
    cases looks.reached.symm.trans reached
    exact ⟨before, visible⟩
  · rintro ⟨before, visible⟩
    exact ⟨here, view, contents, looks.inside, Nat.le_refl here, looks.here, looks.reached, before,
      visible⟩

/-- There is only one last module before the focus. -/
theorem PrecedesLast.unique {letter other : Module V} {outer further : Nat}
    (last : mark.PrecedesLast forest ignore level number letter)
    (lastToo : mark.PrecedesLast forest ignore outer further other) :
    level = outer ∧ number = further ∧ letter = other := by
  have first := last.last outer further other lastToo.precedes
  have second := lastToo.last level number letter last.precedes
  have sameLevel : level = outer := by omega
  have sameNumber : number = further := by omega
  subst sameLevel sameNumber
  rcases last.precedes with ⟨_, view, contents, -, -, there, reached, -, visible⟩
  rcases lastToo.precedes with ⟨_, _, _, -, -, thereToo, reachedToo, -, visibleToo⟩
  cases there.symm.trans thereToo
  cases reached.symm.trans reachedToo
  cases visible.1.symm.trans visibleToo.1
  exact ⟨rfl, rfl, rfl⟩

/-- Outside a level the modules before the focus are those of the levels around it. -/
theorem precedes_outside_iff (inside : mark.level = some (here + 1)) {letter : Module V} :
    (mark.outside (here + 1)).Precedes forest ignore level number letter ↔
      level ≤ here ∧ mark.Precedes forest ignore level number letter := by
  have kept (index : Nat) (below : index ≤ here) :
      (mark.outside (here + 1)).views[index]? = mark.views[index]? := by
    have elsewhere : ¬ here + 1 = index := by omega
    simp [outside, elsewhere]
  constructor
  · rintro ⟨_, view, contents, ⟨⟩, below, there, reached, before, visible⟩
    rw [kept level below] at there
    exact ⟨below, here + 1, view, contents, inside, Nat.le_succ_of_le below, there, reached, before,
      visible⟩
  · rintro ⟨below, _, view, contents, -, -, there, reached, before, visible⟩
    rw [← kept level below] at there
    exact ⟨here, view, contents, rfl, below, there, reached, before, visible⟩

/-- Outside a level without a visible module before its focus nothing is lost. -/
theorem precedes_outside_iff_of_refused (inside : mark.level = some (here + 1))
    (refused : ∀ number (letter : Module V),
      ¬ mark.Precedes forest ignore (here + 1) number letter) {letter : Module V} :
    (mark.outside (here + 1)).Precedes forest ignore level number letter ↔
      mark.Precedes forest ignore level number letter := by
  rw [precedes_outside_iff inside]
  constructor
  · exact And.right
  · intro precedes
    refine ⟨?_, precedes⟩
    rcases precedes with ⟨_, view, contents, same, below, there, reached, before, visible⟩
    cases inside.symm.trans same
    by_cases top : level = here + 1
    · subst top
      exact absurd ⟨_, view, contents, inside, below, there, reached, before, visible⟩
        (refused number letter)
    · omega

/-- What a climb finds, what a search for a parent answers, and where both end, when
they start from the focus of a level. -/
inductive Ascends (forest : Forest V) (ignore : List Symbol) (mark : Bookmark) (here : Nat)
    (contents : Forest V) (focus : Int) (crossed : Bool) :
    Option (Module V) → Option (Module V) → Bookmark → Prop where
  /-- Both stop on the last visible module before the focus.  It is withheld from the
  search for a parent if it is a sibling of the start with no branch in between. -/
  | stopped {level number : Nat} {letter : Module V} {answer : Option (Module V)}
      (last : mark.PrecedesLast forest ignore level number letter)
      (answers : answer = some letter ∨ answer = none)
      (sibling : answer = none ↔
        crossed = false ∧ level = here ∧ ¬ Side.left.Crosses contents focus number) :
      Ascends forest ignore mark here contents focus crossed (some letter) answer
        (mark.climbedTo here level number)
  | left (refused : ∀ level number (letter : Module V),
        ¬ mark.Precedes forest ignore level number letter) :
      Ascends forest ignore mark here contents focus crossed none none (mark.climbedOut here)

/-- The level where both stop may be the one that they start on. -/
theorem Ascends.atOnce {letter : Module V} (crossed : Bool) {noted : Bool} {focus : Int}
    (last : mark.PrecedesLast forest ignore here number letter)
    (crossing : noted = true ↔ crossed = true ∨ Side.left.Crosses contents focus number) :
    Ascends forest ignore mark here contents focus crossed (some letter)
      (if noted then some letter else none) (mark.climbedTo here here number) := by
  apply Ascends.stopped last
  · cases noted with
    | true => exact Or.inl rfl
    | false => exact Or.inr rfl
  · have withheld : (if noted then some letter else none) = none ↔ ¬ noted = true := by
      cases noted <;> simp
    rw [withheld, crossing, not_or, Bool.not_eq_true]
    simp only [true_and]

/-- One level of a climb, and of a search for a parent: both stop on the last visible
module before the focus, or both go on outside. -/
theorem climb_level (ignore : List Symbol) (looks : mark.LooksFrom forest here view contents)
    (crossed : Bool) :
    (∃ found answer after, climb forest ignore mark = some (found, after) ∧
      climbAcross forest ignore crossed mark = some (answer, after) ∧
      Ascends forest ignore mark here contents view.focus crossed found answer after) ∨
    ((∀ number (letter : Module V), ¬ mark.Precedes forest ignore here number letter) ∧
      climb forest ignore mark = climb forest ignore (mark.outside here) ∧
      climbAcross forest ignore crossed mark =
        climbAcross forest ignore true (mark.outside here)) := by
  rcases seekAcross_reaches .left ignore crossed looks with
    ⟨found, moved, noted, reaches, sought, across, crossing⟩
  rw [Side.move] at sought across
  rw [climb_eq, climbAcross_eq]
  simp only [looks.inside, sought, across, Option.bind_eq_bind, Option.bind_some]
  cases reaches with
  | @stopped number element there accepted beyond nearest =>
      rcases Element.exists_letter accepted with ⟨letter, rfl, unhidden⟩
      have last : mark.PrecedesLast forest ignore here number letter := by
        refine ⟨looks.precedes_iff.mpr ⟨beyond, there, unhidden⟩, ?_⟩
        intro outer other another precedes
        rcases precedes with ⟨_, inner, others, same, below, precedes⟩
        cases looks.inside.symm.trans same
        by_cases top : outer = here
        · subst top
          have before := looks.precedes_iff.mp ⟨_, inner, others, same, below, precedes⟩
          have closest := nearest other _ before.2.1 before.1
            (Element.isVisible_leaf_iff.mpr before.2.2)
          simp only [Side.Beyond] at beyond
          exact Or.inr ⟨rfl, by omega⟩
        · exact Or.inl (by omega)
      have stopped := Ascends.atOnce crossed last crossing
      rw [climbedTo_here looks.inside] at stopped
      exact Or.inl ⟨_, _, _, rfl, rfl, stopped⟩
  | parked refused =>
      refine Or.inr ⟨?_, rfl, rfl⟩
      intro number letter precedes
      have before := looks.precedes_iff.mp precedes
      have hidden := refused number _ before.2.1 before.1
      rw [Element.isVisible_leaf_iff.mpr before.2.2] at hidden
      cases hidden

theorem within_outside (within : ∀ view ∈ mark.views, view.Within forest) :
    ∀ view ∈ (mark.outside here).views, view.Within forest := by
  intro other member
  rcases List.mem_iff_getElem?.mp member with ⟨index, there⟩
  rw [outside, getElem?_focusOn, Option.map_eq_some_iff] at there
  rcases there with ⟨view, before, rfl⟩
  rcases within view (List.mem_of_getElem? before) with ⟨contents, reached, low, high⟩
  by_cases given : here = index
  · rw [if_pos given]
    exact ⟨contents, reached, Int.le_refl _, by dsimp only; omega⟩
  · rw [if_neg given]
    exact ⟨contents, reached, low, high⟩

/-- With a last module before the focus both stop there, and on a level further out it
is an answer for both. -/
theorem Ascends.of_last {found answer : Option (Module V)} {after : Bookmark} {letter : Module V}
    {focus : Int} {crossed : Bool}
    (ascends : Ascends forest ignore mark here contents focus crossed found answer after)
    (last : mark.PrecedesLast forest ignore level number letter) :
    found = some letter ∧ after = mark.climbedTo here level number ∧
      (level ≠ here → answer = some letter) := by
  cases ascends with
  | stopped lastToo answers sibling =>
      rcases last.unique lastToo with ⟨rfl, rfl, rfl⟩
      refine ⟨rfl, rfl, ?_⟩
      intro further
      rcases answers with answered | withheld
      · exact answered
      · exact absurd (sibling.mp withheld).2.1 further
  | left refused => exact absurd last.precedes (refused level number letter)

/-- Where both go on outside, they end where they would do from there. -/
theorem Ascends.of_outside {found answer : Option (Module V)} {after : Bookmark}
    {contents others : Forest V} {focus outer : Int} (crossed : Bool)
    (inside : mark.level = some (here + 1))
    (refused : ∀ number (letter : Module V),
      ¬ mark.Precedes forest ignore (here + 1) number letter)
    (ascends : Ascends forest ignore (mark.outside (here + 1)) here others outer true found answer
      after) :
    Ascends forest ignore mark (here + 1) contents focus crossed found answer after := by
  have same {level number : Nat} {letter : Module V} :
      (mark.outside (here + 1)).Precedes forest ignore level number letter ↔
        mark.Precedes forest ignore level number letter :=
    precedes_outside_iff_of_refused inside refused
  cases ascends with
  | @stopped level number letter _ last answers sibling =>
      have below := ((precedes_outside_iff inside).mp last.precedes).1
      rw [climbedTo_outside below]
      refine .stopped ⟨same.mp last.precedes, ?_⟩ answers ?_
      · intro outer other another precedes
        exact last.last outer other another (same.mpr precedes)
      · rw [sibling]
        constructor
        · rintro ⟨⟨⟩, -⟩
        · rintro ⟨-, top, -⟩
          omega
  | left refusedOutside =>
      rw [climbedOut_outside]
      refine .left ?_
      intro level number letter precedes
      exact refusedOutside level number letter (same.mpr precedes)

/-- Where a climb ends, a search for a parent ends too. -/
theorem climb_ends (ignore : List Symbol) (within : ∀ view ∈ mark.views, view.Within forest)
    (looks : mark.LooksFrom forest here view contents) (crossed : Bool) :
    ∃ found answer after, climb forest ignore mark = some (found, after) ∧
      climbAcross forest ignore crossed mark = some (answer, after) ∧
      Ascends forest ignore mark here contents view.focus crossed found answer after := by
  -- From one level to the next one outward; the flag is set as soon as a level has been left.
  induction here generalizing mark view contents crossed with
  | zero =>
      rcases climb_level ignore looks crossed with ended | ⟨refused, climbs, across⟩
      · exact ended
      · refine ⟨none, none, mark.climbedOut 0, ?_, ?_, .left ?_⟩
        · rw [climbs, climbedOut_zero, climb_eq]
          rfl
        · rw [across, climbedOut_zero, climbAcross_eq]
          rfl
        · rintro level number letter ⟨_, other, others, same, below, precedes⟩
          cases looks.inside.symm.trans same
          cases Nat.le_zero.mp below
          exact refused number letter ⟨_, other, others, same, below, precedes⟩
  | succ here inductionHypothesis =>
      rcases climb_level ignore looks crossed with ended | ⟨refused, climbs, across⟩
      · exact ended
      · have withinOutside : ∀ view ∈ (mark.outside (here + 1)).views, view.Within forest :=
          within_outside within
        have bound := (List.getElem?_eq_some_iff.mp looks.here).1
        have boundOutside : here < (mark.outside (here + 1)).views.length := by
          rw [outside, focusOn, List.length_modify]
          omega
        rcases exists_looksFrom withinOutside boundOutside rfl with ⟨outer, others, looksOutside⟩
        rw [climbs, across]
        rcases inductionHypothesis withinOutside looksOutside true with
          ⟨found, answer, after, climbs, across, ascends⟩
        exact ⟨found, answer, after, climbs, across, ascends.of_outside crossed looks.inside refused⟩

end Climbing

/-! ## Outside all levels -/

/-- Nothing is found any more, whatever is asked, until lookups start over from the
walk, and nothing is moved. -/
def Silent (forest : Forest V) (ignore : List Symbol) (mark : Bookmark) : Prop :=
  ∀ calls : List Cursor.Call,
    (∀ call ∈ calls, call.renews (mark.cursor forest).hasNext = false) →
    ∃ replies, mark.performAll forest ignore calls = some (replies, mark) ∧
      (mark.cursor forest).performAll ignore calls = (replies, mark.cursor forest) ∧
      ∀ letter, .found (some letter) ∉ replies

section Silence

variable {forest : Forest V} {ignore : List Symbol} {mark : Bookmark}

theorem perform_of_outside (ignore : List Symbol) (wellFormed : mark.WellFormed forest)
    (fresh : mark.stale = false) (outside : mark.level = none) {call : Cursor.Call}
    (keeps : call.renews (mark.cursor forest).hasNext = false) :
    ∃ reply, mark.perform forest ignore call = some (reply, mark) ∧
      ∀ letter, reply ≠ .found (some letter) := by
  have nowhere (axis : Axis) : mark.lookUp forest ignore axis = some (none, mark) := by
    rw [lookUp, refresh_of_fresh fresh]
    exact search_of_level_eq_none forest ignore axis outside
  cases call with
  | hasNext =>
      refine ⟨.goesOn (mark.cursor forest).hasNext, ?_, by simp⟩
      simp only [perform, wellFormed.hasNext, Option.bind_eq_bind, Option.bind_some]
  | next =>
      refine ⟨.refused .exhaustedWalk, ?_, by simp⟩
      have finished : mark.hasNext forest = some false := by
        rw [wellFormed.hasNext]
        exact congrArg some keeps
      simp only [perform, next, finished, Option.bind_eq_bind, Option.bind_some,
        Bool.false_eq_true, if_false]
  | resetContext => cases keeps
  | lookUp axis =>
      refine ⟨.found none, ?_, by simp⟩
      simp only [perform, nowhere, Option.bind_eq_bind, Option.bind_some]
  | navigate direction =>
      refine ⟨.found none, ?_, by simp⟩
      have onward : direction.fromOrigin = false := keeps
      simp only [perform, navigate, onward, nowhere, Bool.false_eq_true, if_false,
        Option.bind_eq_bind, Option.bind_some]

/-- Without a level to search a bookmark is silent. -/
theorem WellFormed.silent (wellFormed : mark.WellFormed forest) (fresh : mark.stale = false)
    (outside : mark.level = none) : mark.Silent forest ignore := by
  intro calls keep
  have made : ∃ replies, mark.performAll forest ignore calls = some (replies, mark) ∧
      ∀ letter, .found (some letter) ∉ replies := by
    induction calls with
    | nil => exact ⟨[], rfl, by simp⟩
    | cons call rest inductionHypothesis =>
        rcases perform_of_outside ignore wellFormed fresh outside (keep call List.mem_cons_self) with
          ⟨reply, first, unanswered⟩
        rcases inductionHypothesis fun later member =>
            keep later (List.mem_cons_of_mem _ member) with
          ⟨replies, following, unansweredLater⟩
        refine ⟨reply :: replies, ?_, ?_⟩
        · simp only [Bookmark.performAll, first, following, Option.bind_eq_bind, Option.bind_some]
        · intro letter member
          rcases List.mem_cons.mp member with head | tail
          · exact unanswered letter head.symm
          · exact unansweredLater letter tail
  rcases made with ⟨replies, made, unanswered⟩
  rcases wellFormed.performAll ignore calls with ⟨told, after, madeToo, -, same⟩
  cases made.symm.trans madeToo
  exact ⟨replies, made, same, unanswered⟩

end Silence

/-! ## Looking upward -/

/-- What looking upward comes to, wherever the lookups have got to. -/
structure KnowsAncestors (forest : Forest V) (ignore : List Symbol) (mark : Bookmark) :
    Prop where
  /-- The views make sense: up to the level of the lookups each of them is focused on the
  branch that holds the next one. -/
  inOrder : mark.refresh.WellFormed forest
  /-- From a focus both ways of looking upward end in the same place. -/
  onLevel : ∀ here, mark.refresh.level = some here →
    ∃ view contents found answer after, mark.refresh.LooksFrom forest here view contents ∧
      Finds forest ignore .previousSiblingOrParent mark found after ∧
      Finds forest ignore .parent mark answer after ∧
      Ascends forest ignore mark.refresh here contents view.focus false found answer after ∧
      (found = none → after.level = none ∧ after.Silent forest ignore)
  /-- Past the outermost level nothing is found. -/
  outside : mark.refresh.level = none → mark.refresh.Silent forest ignore

/-- Whatever has been asked of a cursor over a forest, and so of the bookmark that it
is kept as, a climb finds the last visible module before the focus on the innermost
level that has one, and a search for a parent ends in the same place. -/
theorem knowsAncestors_performAll (forest : Forest V) (ignore : List Symbol)
    (calls : List Cursor.Call) :
    ∃ replies mark, start.performAll forest ignore calls = some (replies, mark) ∧
      Cursor.performAll ignore calls (.start forest) = (replies, mark.cursor forest) ∧
      mark.KnowsAncestors forest ignore := by
  rcases (wellFormed_start forest).performAll ignore calls with ⟨replies, mark, made, fits, same⟩
  rw [cursor_start] at same
  refine ⟨replies, mark, made, same, ⟨fits.refresh.1, ?_, ?_⟩⟩
  · intro here inside
    rcases fits.refresh.1.exists_looksFrom inside with ⟨view, contents, looks⟩
    rcases climb_ends ignore fits.refresh.1.views.within looks false with
      ⟨found, answer, after, climbs, across, ascends⟩
    have climb : Finds forest ignore .previousSiblingOrParent mark found after ∧
        after.WellFormed forest := fits.finds climbs
    have parent : Finds forest ignore .parent mark answer after ∧ after.WellFormed forest :=
      fits.finds across
    refine ⟨view, contents, found, answer, after, looks, climb.1, parent.1, ascends, ?_⟩
    intro missing
    cases ascends with
    | stopped => cases missing
    | left => exact ⟨rfl, climb.2.silent mark.stale_refresh rfl⟩
  · exact fits.refresh.1.silent mark.stale_refresh

end Bookmark
end LSystem
