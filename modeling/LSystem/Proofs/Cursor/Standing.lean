import LSystem.Proofs.Cursor.Arrival

namespace LSystem

/-!
# Where a walk stands

The element that a walk has passed last is told by a path and a number, and these
tell all the rest: the stops around it are on the branches that hold it.  Main
statement: once the context is back at the walk, the views are those on the way to
the element passed last.
-/

variable {V : Type}

/-- A module stands in a forest where a path and a number say. -/
def Forest.LeafAt (forest : Forest V) (path : List Nat) (number : Nat) (letter : Module V) : Prop :=
  ∃ contents, forest.contentsAt? path = some contents ∧ contents[number]? = some (.leaf letter)

namespace Bookmark

/-! ## The way to an element -/

/-- The views on the way to the element that some numbers lead to, outermost first: each
of them is on what the next one is inside of. -/
def viewsAlong (numbers : List Nat) : List View :=
  numbers.mapIdx fun index (number : Nat) => (⟨numbers.take index, (number : Int)⟩ : View)

@[simp]
theorem viewsAlong_concat (numbers : List Nat) (last : Nat) :
    viewsAlong (numbers ++ [last]) = viewsAlong numbers ++ [⟨numbers, (last : Int)⟩] := by
  rw [viewsAlong, List.mapIdx_concat, List.take_left]
  congr 1
  apply List.mapIdx_eq_mapIdx_iff.mpr
  intro index bound
  rw [List.take_append_of_le_length (Nat.le_of_lt bound)]

/-- The view of a level is on the element of that level which is on the way. -/
theorem getElem?_viewsAlong {numbers : List Nat} {index : Nat} {view : View} :
    (viewsAlong numbers)[index]? = some view ↔
      ∃ (outer : List Nat) (next : Nat) (further : List Nat),
        numbers = outer ++ next :: further ∧ outer.length = index ∧ view = ⟨outer, next⟩ := by
  rw [viewsAlong, List.getElem?_mapIdx, Option.map_eq_some_iff]
  constructor
  · rintro ⟨next, here, rfl⟩
    rcases List.getElem?_eq_some_iff.mp here with ⟨bound, rfl⟩
    refine ⟨numbers.take index, numbers[index], numbers.drop (index + 1), ?_, ?_, rfl⟩
    · rw [List.getElem_cons_drop, List.take_append_drop]
    · exact List.length_take_of_le (Nat.le_of_lt bound)
  · rintro ⟨outer, next, further, rfl, rfl, rfl⟩
    refine ⟨next, ?_, ?_⟩
    · rw [List.getElem?_append_right (Nat.le_refl _), Nat.sub_self]
      rfl
    · rw [List.take_left]

/-- A level on the way to an element is its own one or a level around it. -/
theorem prefix_of_way {path outer further : List Nat} {number next : Nat}
    (way : path ++ [number] = outer ++ next :: further) : outer <+: path := by
  have shorter := congrArg List.length way
  rw [List.length_append, List.length_singleton, List.length_append, List.length_cons] at shorter
  have prefixOf : outer <+: path ++ [number] := ⟨next :: further, way.symm⟩
  exact List.prefix_of_prefix_length_le prefixOf (List.prefix_append path [number]) (by omega)

/-- The place of an element. -/
def placeAt (forest : Forest V) (path : List Nat) (number : Nat) : Place V :=
  placeOf forest (viewsAlong (path ++ [number])).reverse

/-! ## The walk -/

theorem passed?_eq_some_iff {mark : Bookmark} {path : List Nat} {number : Nat} :
    mark.passed? = some ⟨path, number⟩ ↔ ∃ around, mark.walk = ⟨path, number + 1⟩ :: around := by
  rw [passed?, Option.map_eq_some_iff]
  constructor
  · rintro ⟨⟨reached, next⟩, first, same⟩
    rcases List.head?_eq_some_iff.mp first with ⟨around, stands⟩
    simp only [Stop.view, View.mk.injEq] at same
    have counted : next = number + 1 := by omega
    exact ⟨around, by rw [stands, same.1, counted]⟩
  · rintro ⟨around, stands⟩
    refine ⟨⟨path, number + 1⟩, ?_, ?_⟩
    · rw [stands, List.head?_cons]
    · rw [Stop.view, Int.natCast_add, Int.natCast_one, Int.add_sub_cancel]

/-- The innermost stop of a walk tells all the others. -/
theorem WalkFits.views_eq {forest : Forest V} {path : List Nat} {number : Nat}
    {around : List Stop} (fits : WalkFits forest (⟨path, number + 1⟩ :: around)) :
    ((⟨path, number + 1⟩ :: around).map Stop.view).reverse = viewsAlong (path ++ [number]) := by
  have view : Stop.view ⟨path, number + 1⟩ = ⟨path, (number : Int)⟩ := by
    rw [Stop.view, Int.natCast_add, Int.natCast_one, Int.add_sub_cancel]
  rw [List.map_cons, List.reverse_cons, view, viewsAlong_concat]
  congr 1
  induction around generalizing path number with
  | nil =>
      have root : path = [] := Option.some.inj fits.outermost
      rw [root]
      rfl
  | cons outer rest inductionHypothesis =>
      rcases outer with ⟨outside, next⟩
      rcases (List.isChain_cons_cons.mp fits.nested).1 with ⟨begun, inside⟩
      obtain ⟨before, rfl⟩ : ∃ before, next = before + 1 := ⟨next - 1, by dsimp only at begun; omega⟩
      dsimp only at inside
      rw [Nat.add_sub_cancel] at inside
      have viewOutside : Stop.view ⟨outside, before + 1⟩ = ⟨outside, (before : Int)⟩ := by
        rw [Stop.view, Int.natCast_add, Int.natCast_one, Int.add_sub_cancel]
      rw [List.map_cons, List.reverse_cons, inductionHypothesis fits.exit viewOutside, viewOutside,
        inside, viewsAlong_concat]

section Standing

variable {forest : Forest V} {mark : Bookmark} {path : List Nat} {number : Nat}

theorem WellFormed.views_walk (wellFormed : mark.WellFormed forest)
    (passed : mark.passed? = some ⟨path, number⟩) :
    (mark.walk.map Stop.view).reverse = viewsAlong (path ++ [number]) := by
  rcases passed?_eq_some_iff.mp passed with ⟨around, stands⟩
  have fits := wellFormed.walk
  rw [stands] at fits ⊢
  exact fits.views_eq

/-- Where the walk stands is told by the element that it has passed last. -/
theorem WellFormed.position_along (wellFormed : mark.WellFormed forest)
    (passed : mark.passed? = some ⟨path, number⟩) :
    (mark.cursor forest).position = placeAt forest path number := by
  rw [placeAt, ← wellFormed.views_walk passed, List.reverse_reverse]
  rfl

/-- There is a level for every view on the way. -/
theorem WellFormed.exists_level_along (wellFormed : mark.WellFormed forest)
    (passed : mark.passed? = some ⟨path, number⟩) {view : View}
    (member : view ∈ viewsAlong (path ++ [number])) :
    view.path <+: path ∧ ∃ contents, forest.contentsAt? view.path = some contents := by
  constructor
  · rcases List.mem_iff_getElem?.mp member with ⟨index, there⟩
    rcases getElem?_viewsAlong.mp there with ⟨outer, next, further, way, -, rfl⟩
    exact prefix_of_way way
  · rw [← wellFormed.views_walk passed, List.mem_reverse] at member
    rcases List.mem_map.mp member with ⟨stop, onWalk, rfl⟩
    rcases wellFormed.walk.within stop onWalk with ⟨contents, reached, -⟩
    exact ⟨contents, reached⟩

/-- Where the walk stands tells where lookups start over. -/
theorem WellFormed.resetContext_along (wellFormed : mark.WellFormed forest)
    (passed : mark.passed? = some ⟨path, number⟩) :
    mark.resetContext.views = viewsAlong (path ++ [number]) ∧
      mark.resetContext.level = some path.length := by
  have views := wellFormed.views_walk passed
  refine ⟨views, ?_⟩
  have length := congrArg List.length views
  rw [List.length_reverse, List.length_map, viewsAlong, List.length_mapIdx, List.length_append,
    List.length_singleton] at length
  rw [Bookmark.resetContext, length]
  rfl

end Standing

end Bookmark
end LSystem
