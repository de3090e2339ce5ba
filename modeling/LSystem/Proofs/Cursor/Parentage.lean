import LSystem.Proofs.Cursor.Ascent
import LSystem.Proofs.Cursor.Standing

namespace LSystem

/-!
# Parents

When a search for a parent starts over from the module that the walk has come to, it goes
to the nearest visible module before it: to its left, or where nothing is left there, to the
left of the branch that holds it, and so on outwards.  Main statement: this module is found
if it is on a level around, and also if it is on the same level with a branch in between,
because the search only notes that it has come past a branch, be it out of one or over one.
A sibling with no branch in between is withheld.
-/

variable {V : Type}

/-! ## Modules before an element -/

namespace Forest

/-- A level is around another one, which is inside one of its branches. -/
def Encloses (outer inner : List Nat) : Prop := outer <+: inner ∧ outer ≠ inner

/-- A branch stands between two elements of a level. -/
def BranchBetween (contents : Forest V) (first last : Nat) : Prop :=
  ∃ (number : Nat) (inside : Forest V), contents[number]? = some (.branch inside) ∧
    first < number ∧ number < last

/-- A visible module stands to the left of an element, or to the left of a branch that
holds it. -/
def VisibleBefore (forest : Forest V) (ignore : List Symbol) (path : List Nat) (number : Nat)
    (outer : List Nat) (position : Nat) (letter : Module V) : Prop :=
  ∃ (next : Nat) (further : List Nat) (contents : Forest V),
    path ++ [number] = outer ++ next :: further ∧ position < next ∧
    forest.contentsAt? outer = some contents ∧ contents.VisibleAt ignore position letter

/-- The nearest one of them is on the innermost level that has any, and there furthest to
the right. -/
structure NearestBefore (forest : Forest V) (ignore : List Symbol) (path : List Nat)
    (number : Nat) (outer : List Nat) (position : Nat) (letter : Module V) : Prop where
  before : forest.VisibleBefore ignore path number outer position letter
  nearest : ∀ around other another, forest.VisibleBefore ignore path number around other another →
    Encloses around outer ∨ around = outer ∧ other ≤ position

/-- The nearest visible module before an element is its parent if it is on a level around, or
else if a branch stands in between. -/
structure IsParent (forest : Forest V) (ignore : List Symbol) (path : List Nat) (number : Nat)
    (outer : List Nat) (position : Nat) (letter : Module V) : Prop where
  nearest : forest.NearestBefore ignore path number outer position letter
  apart : Encloses outer path ∨ outer = path ∧
    ∃ contents, forest.contentsAt? path = some contents ∧ contents.BranchBetween position number

section Before

variable {forest : Forest V} {ignore : List Symbol} {path outer : List Nat}
  {number position : Nat} {letter : Module V}

/-- Nothing is around the outermost level. -/
theorem not_encloses_nil (outer : List Nat) : ¬ Encloses outer [] := by
  rintro ⟨prefixOf, different⟩
  exact different (List.prefix_nil.mp prefixOf)

/-- A module before an element is on its level or on one around it. -/
theorem VisibleBefore.around (before : forest.VisibleBefore ignore path number outer position letter) :
    outer <+: path := by
  rcases before with ⟨next, further, contents, way, -⟩
  exact Bookmark.prefix_of_way way

/-- There is only one nearest module before an element. -/
theorem NearestBefore.unique {around : List Nat} {other : Nat} {another : Module V}
    (first : forest.NearestBefore ignore path number outer position letter)
    (second : forest.NearestBefore ignore path number around other another) :
    outer = around ∧ position = other ∧ letter = another := by
  have bounded := first.nearest around other another second.before
  have boundedToo := second.nearest outer position letter first.before
  have same : around = outer := by
    rcases bounded with ⟨prefixOf, -⟩ | ⟨same, -⟩
    · rcases boundedToo with ⟨prefixOfToo, -⟩ | ⟨same, -⟩
      · exact prefixOf.eq_of_length_le prefixOfToo.length_le
      · exact same.symm
    · exact same
  subst same
  have level : position = other := by
    rcases bounded with ⟨-, different⟩ | ⟨-, bound⟩
    · exact absurd rfl different
    · rcases boundedToo with ⟨-, different⟩ | ⟨-, boundToo⟩
      · exact absurd rfl different
      · exact Nat.le_antisymm boundToo bound
  subst level
  rcases first.before with ⟨_, _, contents, -, -, reached, visible⟩
  rcases second.before with ⟨_, _, _, -, -, reachedToo, visibleToo⟩
  cases reached.symm.trans reachedToo
  cases visible.1.symm.trans visibleToo.1
  exact ⟨rfl, rfl, rfl⟩

/-- The nearest module before an element is its parent unless it is a sibling with no branch
in between. -/
theorem NearestBefore.isParent_iff {contents : Forest V}
    (nearest : forest.NearestBefore ignore path number outer position letter)
    (reached : forest.contentsAt? path = some contents) :
    forest.IsParent ignore path number outer position letter ↔
      ¬ (outer.length = path.length ∧ ¬ contents.BranchBetween position number) := by
  constructor
  · rintro ⟨-, ⟨prefixOf, different⟩ | ⟨-, _, reachedToo, between⟩⟩ ⟨level, beside⟩
    · exact different (prefixOf.eq_of_length level)
    · cases reached.symm.trans reachedToo
      exact beside between
  · intro apart
    refine ⟨nearest, ?_⟩
    by_cases same : outer = path
    · have between : contents.BranchBetween position number := by
        by_contra beside
        exact apart ⟨congrArg List.length same, beside⟩
      exact Or.inr ⟨same, contents, reached, between⟩
    · exact Or.inl ⟨nearest.before.around, same⟩

/-- On the outermost level the modules before an element are those to its left. -/
theorem visibleBefore_nil_iff :
    forest.VisibleBefore ignore [] number outer position letter ↔
      outer = [] ∧ position < number ∧ forest.VisibleAt ignore position letter := by
  constructor
  · intro before
    have top := List.prefix_nil.mp before.around
    subst top
    rcases before with ⟨next, further, contents, way, left, reached, visible⟩
    cases way
    cases reached
    exact ⟨rfl, left, visible⟩
  · rintro ⟨rfl, left, visible⟩
    exact ⟨number, [], forest, rfl, left, rfl, visible⟩

/-- At the outermost level a parent is a sibling with a branch in between. -/
theorem isParent_nil_iff :
    forest.IsParent ignore [] number outer position letter ↔
      outer = [] ∧ position < number ∧ forest.VisibleAt ignore position letter ∧
        (∀ other another, other < number → forest.VisibleAt ignore other another →
          other ≤ position) ∧ forest.BranchBetween position number := by
  constructor
  · rintro ⟨⟨before, nearest⟩, apart⟩
    rcases visibleBefore_nil_iff.mp before with ⟨rfl, left, visible⟩
    refine ⟨rfl, left, visible, ?_, ?_⟩
    · intro other another leftToo visibleToo
      rcases nearest [] other another (visibleBefore_nil_iff.mpr ⟨rfl, leftToo, visibleToo⟩) with
        encloses | ⟨-, bounded⟩
      · exact absurd encloses (not_encloses_nil [])
      · exact bounded
    · rcases apart with encloses | ⟨-, contents, reached, between⟩
      · exact absurd encloses (not_encloses_nil [])
      · cases reached
        exact between
  · rintro ⟨rfl, left, visible, nearest, between⟩
    refine ⟨⟨visibleBefore_nil_iff.mpr ⟨rfl, left, visible⟩, ?_⟩, Or.inr ⟨rfl, forest, rfl, between⟩⟩
    intro around other another before
    rcases visibleBefore_nil_iff.mp before with ⟨top, leftToo, visibleToo⟩
    exact Or.inr ⟨top, nearest other another leftToo visibleToo⟩

end Before

end Forest

/-! ## The search -/

namespace Bookmark

section Searching

variable {forest : Forest V} {ignore : List Symbol} {mark : Bookmark} {path : List Nat}
  {number : Nat}

/-- From where lookups start over, the modules before the focus are those before the element
that the walk has passed last. -/
theorem WellFormed.precedes_resetContext (wellFormed : mark.WellFormed forest)
    (passed : mark.passed? = some ⟨path, number⟩) {level position : Nat} {letter : Module V} :
    mark.resetContext.Precedes forest ignore level position letter ↔
      ∃ outer, outer.length = level ∧
        forest.VisibleBefore ignore path number outer position letter := by
  rcases wellFormed.resetContext_along passed with ⟨views, inside⟩
  constructor
  · rintro ⟨_, view, contents, same, below, there, reached, before, visible⟩
    rw [views, getElem?_viewsAlong] at there
    rcases there with ⟨outer, next, further, way, depth, rfl⟩
    exact ⟨outer, depth, next, further, contents, way, Int.ofNat_lt.mp before, reached, visible⟩
  · rintro ⟨outer, depth, before⟩
    have around := before.around.length_le
    rcases before with ⟨next, further, contents, way, left, reached, visible⟩
    refine ⟨path.length, ⟨outer, next⟩, contents, inside, by omega, ?_, reached,
      Int.ofNat_lt.mpr left, visible⟩
    rw [views, getElem?_viewsAlong]
    exact ⟨outer, next, further, way, depth, rfl⟩

/-- The last of them is the nearest one. -/
theorem WellFormed.nearestBefore_of_precedesLast (wellFormed : mark.WellFormed forest)
    (passed : mark.passed? = some ⟨path, number⟩) {outer : List Nat} {position : Nat}
    {letter : Module V} (before : forest.VisibleBefore ignore path number outer position letter)
    (last : mark.resetContext.PrecedesLast forest ignore outer.length position letter) :
    forest.NearestBefore ignore path number outer position letter := by
  refine ⟨before, ?_⟩
  intro around other another beforeToo
  have precedes := (wellFormed.precedes_resetContext passed).mpr ⟨around, rfl, beforeToo⟩
  have prefixOf (noLonger : around.length ≤ outer.length) : around <+: outer :=
    List.prefix_of_prefix_length_le beforeToo.around before.around noLonger
  rcases last.last around.length other another precedes with shorter | ⟨level, bounded⟩
  · have different : around ≠ outer := fun same => Nat.ne_of_lt shorter (congrArg List.length same)
    exact Or.inl ⟨prefixOf (Nat.le_of_lt shorter), different⟩
  · exact Or.inr ⟨(prefixOf (Nat.le_of_eq level)).eq_of_length level, bounded⟩

end Searching

/-- What a search for the parent comes to when it starts over from the element that the walk
has passed last. -/
structure FindsParent (forest : Forest V) (ignore : List Symbol) (mark : Bookmark)
    (path : List Nat) (number : Nat) (answer : Option (Module V)) (after : Bookmark) : Prop where
  /-- The search starts over on the bookmark as it does on its cursor. -/
  startsOver : mark.resetContext.cursor forest = (mark.cursor forest).resetContext
  finds : Finds forest ignore .parent mark.resetContext answer after
  /-- What is found is the parent, and the focus comes to rest on that occurrence of it. -/
  sound : ∀ parent, answer = some parent → ∃ outer position,
    after.focused? = some ⟨outer, (position : Nat)⟩ ∧
      forest.IsParent ignore path number outer position parent
  /-- Where there is a parent it is found. -/
  complete : ∀ outer position parent,
    forest.IsParent ignore path number outer position parent → answer = some parent
  /-- On the outermost level it takes a branch between an element and the nearest visible
  module to its left, and then that module is found. -/
  onTop : path = [] → ∀ parent, answer = some parent ↔
    ∃ position, position < number ∧ forest.VisibleAt ignore position parent ∧
      (∀ other another, other < number → forest.VisibleAt ignore other another →
        other ≤ position) ∧ forest.BranchBetween position number

section Finding

variable {forest contents : Forest V} {ignore : List Symbol} {mark after : Bookmark}
  {path : List Nat} {number : Nat} {answer found : Option (Module V)}

theorem crosses_left_iff {first last : Nat} :
    Side.left.Crosses contents last first ↔ contents.BranchBetween first last := by
  simp only [Side.Crosses, Side.opposite, Side.Beyond, Forest.BranchBetween, Int.ofNat_lt]
  constructor
  · rintro ⟨number, inside, branch, before, behind⟩
    exact ⟨number, inside, branch, behind, before⟩
  · rintro ⟨number, inside, branch, behind, before⟩
    exact ⟨number, inside, branch, before, behind⟩

/-- Where a search for a parent ends, the answer is the parent. -/
theorem WellFormed.isParent_of_ascends (wellFormed : mark.WellFormed forest)
    (passed : mark.passed? = some ⟨path, number⟩)
    (reached : forest.contentsAt? path = some contents)
    (ascends : Ascends forest ignore mark.resetContext path.length contents number false found
      answer after) :
    (∀ parent, answer = some parent → ∃ outer position,
      after.focused? = some ⟨outer, (position : Nat)⟩ ∧
        forest.IsParent ignore path number outer position parent) ∧
    ∀ outer position parent,
      forest.IsParent ignore path number outer position parent → answer = some parent := by
  cases ascends with
  | @stopped level position letter _ last answers sibling =>
      rcases (wellFormed.precedes_resetContext passed).mp last.precedes with ⟨outer, rfl, before⟩
      have nearest := wellFormed.nearestBefore_of_precedesLast passed before last
      have answered : forest.IsParent ignore path number outer position letter ↔ answer ≠ none := by
        rw [nearest.isParent_iff reached, ne_eq, sibling, crosses_left_iff, eq_self, true_and]
      constructor
      · intro parent isAnswer
        rcases answers with rfl | rfl
        · cases isAnswer
          refine ⟨outer, position, ?_, answered.mpr (Option.some_ne_none letter)⟩
          rcases before with ⟨next, further, _, way, -⟩
          rw [focused?_climbedTo, (wellFormed.resetContext_along passed).1,
            getElem?_viewsAlong.mpr ⟨outer, next, further, way, rfl, rfl⟩]
          rfl
        · cases isAnswer
      · intro around other parent isParent
        rcases nearest.unique isParent.nearest with ⟨rfl, rfl, rfl⟩
        exact answers.resolve_right (answered.mp isParent)
  | left refused =>
      constructor
      · rintro parent ⟨⟩
      · rintro outer position parent ⟨⟨before, -⟩, -⟩
        exact absurd ((wellFormed.precedes_resetContext passed).mpr ⟨outer, rfl, before⟩)
          (refused outer.length position parent)

/-- Wherever the walk stands, a search for the parent has a result. -/
theorem WellFormed.findsParent (ignore : List Symbol) (wellFormed : mark.WellFormed forest)
    (passed : mark.passed? = some ⟨path, number⟩) :
    ∃ answer after, FindsParent forest ignore mark path number answer after := by
  rcases wellFormed.resetContext with ⟨fits, startsOver⟩
  rcases wellFormed.resetContext_along passed with ⟨views, inside⟩
  rcases fits.exists_looksFrom inside with ⟨view, contents, looks⟩
  have focus : mark.resetContext.views[path.length]? = some ⟨path, number⟩ := by
    rw [views, getElem?_viewsAlong]
    exact ⟨path, number, [], rfl, rfl, rfl⟩
  cases looks.here.symm.trans focus
  rcases climb_ends ignore fits.views.within looks false with
    ⟨found, answer, after, -, across, ascends⟩
  have sought : mark.resetContext.lookUp forest ignore .parent = some (answer, after) := by
    rw [Bookmark.lookUp, refresh_of_fresh rfl]
    exact across
  rcases wellFormed.isParent_of_ascends passed looks.reached ascends with ⟨sound, complete⟩
  refine ⟨answer, after, startsOver, (fits.finds sought).1, sound, complete, ?_⟩
  rintro rfl parent
  constructor
  · intro answered
    rcases sound parent answered with ⟨outer, position, -, isParent⟩
    exact ⟨position, (Forest.isParent_nil_iff.mp isParent).2⟩
  · rintro ⟨position, beside⟩
    exact complete [] position parent (Forest.isParent_nil_iff.mpr ⟨rfl, beside⟩)

end Finding

/-! ## Parents of visited modules -/

/-- A search for the parent of a module, from wherever in the walk it is visited. -/
structure ParentSettled (forest : Forest V) (ignore : List Symbol) (path : List Nat)
    (number : Nat) (letter : Module V) : Prop where
  /-- The walk does come to the module. -/
  visited : ∃ steps told mark,
    start.performAll forest ignore (List.replicate (steps + 1) .next) =
      some (told ++ [.visited (.leaf letter)], mark) ∧
    mark.passed? = some ⟨path, number⟩
  /-- Whatever has been asked, once the module is what the walk has passed last, its parent is
  found. -/
  found : ∀ calls replies mark, start.performAll forest ignore calls = some (replies, mark) →
    mark.passed? = some ⟨path, number⟩ →
    Cursor.performAll ignore calls (.start forest) = (replies, mark.cursor forest) ∧
      ∃ answer after, FindsParent forest ignore mark path number answer after

/-- For every module of a forest a search that starts over finds the parent, which is on a
level around it, or beside it across a branch. -/
theorem parentSettled_of_leafAt (forest : Forest V) (ignore : List Symbol) (path : List Nat)
    (number : Nat) (letter : Module V) (leaf : forest.LeafAt path number letter) :
    ParentSettled forest ignore path number letter := by
  rcases leaf with ⟨contents, reached, here⟩
  refine ⟨exists_visit ignore reached here, ?_⟩
  intro calls replies mark made passed
  rcases (wellFormed_start forest).performAll ignore calls with ⟨told, after, madeToo, fits, same⟩
  rw [cursor_start] at same
  cases made.symm.trans madeToo
  exact ⟨same, fits.findsParent ignore passed⟩

/-- Two modules and a branch between them. -/
def hedge : Forest Nat :=
  [.leaf (.plain ⟨"A"⟩), .branch [.leaf (.plain ⟨"X"⟩)], .leaf (.plain ⟨"B"⟩)]

/-- The second module has the first one for its parent, across the branch. -/
theorem hedge_isParent : hedge.IsParent [] [] 2 [] 0 (.plain ⟨"A"⟩) := by
  have nearest : ∀ other another, other < 2 → hedge.VisibleAt [] other another → other ≤ 0 := by
    rintro other another left ⟨there, -⟩
    match other, left with
    | 0, _ => exact Nat.le_refl 0
    | 1, _ => cases there
  have between : hedge.BranchBetween 0 2 := ⟨1, _, rfl, Nat.zero_lt_one, Nat.one_lt_two⟩
  exact Forest.isParent_nil_iff.mpr
    ⟨rfl, Nat.zero_lt_two, ⟨rfl, List.not_mem_nil⟩, nearest, between⟩

/-- Five steps lead past the second module. -/
theorem hedge_walked :
    start.performAll hedge [] (List.replicate 5 .next) =
      some ([.visited (.leaf (.plain ⟨"A"⟩)), .visited .enter, .visited (.leaf (.plain ⟨"X"⟩)),
        .visited .exit] ++ [.visited (.leaf (.plain ⟨"B"⟩))],
        ⟨[⟨[], 3⟩], [⟨[], -1⟩], some 0, true⟩) := rfl

/-- When the walk has come to the second module, its search for a parent is settled. -/
theorem hedge_parentSettled :
    hedge.LeafAt [] 2 (.plain ⟨"B"⟩) ∧ ∃ replies mark,
      start.performAll hedge [] (List.replicate 5 .next) = some (replies, mark) ∧
      mark.passed? = some ⟨[], 2⟩ ∧
      ∃ answer after, FindsParent hedge [] mark [] 2 answer after := by
  have leaf : hedge.LeafAt [] 2 (.plain ⟨"B"⟩) := ⟨hedge, rfl, rfl⟩
  have settled := parentSettled_of_leafAt hedge [] [] 2 (.plain ⟨"B"⟩) leaf
  exact ⟨leaf, _, _, hedge_walked, rfl, (settled.found _ _ _ hedge_walked rfl).2⟩

/-- A parent need not enclose a module: on the outermost level, which no level encloses, the
search from the second module finds the first one. -/
theorem hedge_finds_beside :
    (∀ outer, ¬ Forest.Encloses outer []) ∧ ∃ before mark after,
      start.performAll hedge [] (List.replicate 5 .next) =
        some (before ++ [.visited (.leaf (.plain ⟨"B"⟩))], mark) ∧
      mark.passed? = some ⟨[], 2⟩ ∧
      Finds hedge [] .parent mark.resetContext (some (.plain ⟨"A"⟩)) after ∧
      after.focused? = some ⟨[], 0⟩ := by
  refine ⟨Forest.not_encloses_nil, ?_⟩
  rcases (wellFormed_start hedge).performAll [] (List.replicate 5 .next) with
    ⟨replies, mark, made, fits, -⟩
  cases hedge_walked.symm.trans made
  rcases fits.findsParent [] rfl with ⟨answer, after, parent⟩
  have found := parent.complete [] 0 _ hedge_isParent
  subst found
  rcases parent.sound _ rfl with ⟨outer, position, focused, isParent⟩
  rcases isParent.nearest.unique hedge_isParent.nearest with ⟨rfl, rfl, -⟩
  exact ⟨_, _, after, hedge_walked, rfl, parent.finds, focused⟩

end Bookmark
end LSystem
