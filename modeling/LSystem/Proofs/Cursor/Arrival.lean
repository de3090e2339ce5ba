import LSystem.Proofs.Cursor.Bookkeeping

namespace LSystem

/-!
# Arrival

An element of a forest is told by a path and a number.  Main statement: the walk of a
bookmark comes to every element that is told like this, and when it has visited it, the
numbers of the innermost stop are those of the element.  Steps are enough for that;
lookups in between would make no difference.
-/

variable {V : Type}

namespace Bookmark

/-- The element that the walk has passed last on its level. -/
def passed? (mark : Bookmark) : Option View := mark.walk.head?.map Stop.view

/-! ## Many steps -/

theorem performAll_append {forest : Forest V} {ignore : List Symbol}
    {first second : List Cursor.Call} {mark between last : Bookmark}
    {told later : List (Cursor.Reply V)}
    (made : mark.performAll forest ignore first = some (told, between))
    (following : between.performAll forest ignore second = some (later, last)) :
    mark.performAll forest ignore (first ++ second) = some (told ++ later, last) := by
  induction first generalizing mark told with
  | nil =>
      cases made
      exact following
  | cons call rest inductionHypothesis =>
      simp only [performAll, Option.bind_eq_bind, Option.bind_eq_some_iff, Option.some.injEq,
        Prod.mk.injEq] at made
      rcases made with ⟨⟨reply, moved⟩, performed, ⟨replies, _⟩, onward, rfl, rfl⟩
      have both := inductionHypothesis onward
      simp only [List.cons_append, performAll, performed, both, Option.bind_eq_bind,
        Option.bind_some]

/-- Some number of steps leads from one bookmark to another one. -/
def Strides (forest : Forest V) (ignore : List Symbol) (mark after : Bookmark) : Prop :=
  ∃ steps told, mark.performAll forest ignore (List.replicate steps .next) = some (told, after)

namespace Strides

variable {forest contents : Forest V} {ignore : List Symbol} {mark between after : Bookmark}

theorem refl (mark : Bookmark) : Strides forest ignore mark mark := ⟨0, [], rfl⟩

theorem trans (first : Strides forest ignore mark between)
    (second : Strides forest ignore between after) : Strides forest ignore mark after := by
  rcases first with ⟨steps, told, made⟩
  rcases second with ⟨further, later, following⟩
  refine ⟨steps + further, told ++ later, ?_⟩
  rw [← List.replicate_append_replicate]
  exact performAll_append made following

theorem of_next {visit : Visit V} (made : mark.next forest = some (.ok (visit, after))) :
    Strides forest ignore mark after := by
  refine ⟨1, [.visited visit], ?_⟩
  simp only [List.replicate_one, performAll, perform, made, Option.bind_eq_bind, Option.bind_some]

/-- The first of the elements ahead is the next one. -/
theorem ahead_cons {next : Nat} {element : Element V} {others beyond : Forest V}
    (rest : contents.drop next = element :: others ++ beyond) :
    contents[next]? = some element ∧ contents.drop (next + 1) = others ++ beyond := by
  constructor
  · rw [← List.head?_drop, rest]
    rfl
  · rw [← List.tail_drop, rest]
    rfl

/-- A walk comes past all elements ahead, whatever the branches among them hold. -/
theorem exists_past (ignore : List Symbol) (ahead : Forest V) {beyond : Forest V}
    {path : List Nat} {next : Nat} {around : List Stop}
    (stands : mark.walk = ⟨path, next⟩ :: around)
    (reached : forest.contentsAt? path = some contents)
    (rest : contents.drop next = ahead ++ beyond) :
    ∃ after, Strides forest ignore mark after ∧
      after.walk = ⟨path, next + ahead.length⟩ :: around := by
  induction ahead using Forest.induction
    generalizing mark contents beyond path next around with
  | nil => exact ⟨mark, refl mark, stands⟩
  | leaf first others inOthers =>
      rcases ahead_cons rest with ⟨here, further⟩
      have passed := next_leaf stands reached here
      rcases inOthers (walk_steppedTo _ _) reached further with ⟨after, onward, standsAfter⟩
      refine ⟨after, (of_next passed).trans onward, ?_⟩
      rw [standsAfter, List.length_cons, Nat.add_right_comm, Nat.add_assoc]
  | branch inside others inInside inOthers =>
      rcases ahead_cons rest with ⟨here, further⟩
      have entered := next_enter stands reached here
      have below := contentsAt?_concat reached here
      have whole : inside.drop 0 = inside ++ [] := (List.append_nil inside).symm
      have standsInside :=
        walk_steppedTo (⟨path ++ [next], 0⟩ :: ⟨path, next + 1⟩ :: around) mark
      rcases inInside standsInside below whole with ⟨inner, through, standsInner⟩
      rw [Nat.zero_add] at standsInner
      have left := next_exit standsInner below (List.getElem?_eq_none (Nat.le_refl _))
      rcases inOthers (walk_steppedTo _ _) reached further with ⟨after, onward, standsAfter⟩
      refine ⟨after, (of_next entered).trans (through.trans ((of_next left).trans onward)), ?_⟩
      rw [standsAfter, List.length_cons, Nat.add_right_comm, Nat.add_assoc]

end Strides

/-! ## Arriving -/

/-- The last number of a path is that of a branch on the level that the others lead to. -/
theorem exists_of_contentsAt?_concat {forest inside : Forest V} {path : List Nat} {number : Nat}
    (reached : forest.contentsAt? (path ++ [number]) = some inside) :
    ∃ contents, forest.contentsAt? path = some contents ∧
      contents[number]? = some (.branch inside) := by
  induction path generalizing forest with
  | nil =>
      rw [List.nil_append, Forest.contentsAt?] at reached
      split at reached
      · next contents here =>
          cases reached
          exact ⟨forest, rfl, here⟩
      · cases reached
  | cons first rest inductionHypothesis =>
      rw [List.cons_append, Forest.contentsAt?] at reached
      rw [Forest.contentsAt?]
      split at reached
      · exact inductionHypothesis reached
      · cases reached

/-- The walk comes to every place on every level. -/
theorem exists_strides {forest : Forest V} (ignore : List Symbol) {path : List Nat}
    {contents : Forest V} (reached : forest.contentsAt? path = some contents) {number : Nat}
    (bound : number ≤ contents.length) :
    ∃ mark around, Strides forest ignore start mark ∧ mark.walk = ⟨path, number⟩ :: around := by
  induction path using List.reverseRecOn generalizing contents number with
  | nil =>
      cases reached
      have halves : forest.drop 0 = forest.take number ++ forest.drop number :=
        (List.take_append_drop number forest).symm
      have stands : start.walk = [⟨[], 0⟩] := rfl
      rcases Strides.exists_past ignore (forest.take number) stands rfl halves with
        ⟨mark, onward, standsAfter⟩
      rw [List.length_take_of_le bound, Nat.zero_add] at standsAfter
      exact ⟨mark, [], onward, standsAfter⟩
  | append_singleton path index inductionHypothesis =>
      rcases exists_of_contentsAt?_concat reached with ⟨outer, reachedOuter, branch⟩
      have before := Nat.le_of_lt (List.getElem?_eq_some_iff.mp branch).1
      rcases inductionHypothesis reachedOuter before with ⟨mark, around, arrived, stands⟩
      have entered := next_enter stands reachedOuter branch
      have halves : contents.drop 0 = contents.take number ++ contents.drop number :=
        (List.take_append_drop number contents).symm
      have standsInside :=
        walk_steppedTo (⟨path ++ [index], 0⟩ :: ⟨path, index + 1⟩ :: around) mark
      rcases Strides.exists_past ignore (contents.take number) standsInside reached halves with
        ⟨after, onward, standsAfter⟩
      rw [List.length_take_of_le bound, Nat.zero_add] at standsAfter
      exact ⟨after, _, arrived.trans ((Strides.of_next entered).trans onward), standsAfter⟩

/-- Every leaf of a forest is visited by a step of the walk, and then its number is that of
the element passed last. -/
theorem exists_visit {forest : Forest V} (ignore : List Symbol) {path : List Nat}
    {contents : Forest V} (reached : forest.contentsAt? path = some contents) {number : Nat}
    {letter : Module V} (here : contents[number]? = some (.leaf letter)) :
    ∃ steps told mark,
      start.performAll forest ignore (List.replicate (steps + 1) .next) =
        some (told ++ [.visited (.leaf letter)], mark) ∧
      mark.passed? = some ⟨path, number⟩ := by
  have bound := Nat.le_of_lt (List.getElem?_eq_some_iff.mp here).1
  rcases exists_strides ignore reached bound with ⟨mark, around, ⟨steps, told, made⟩, stands⟩
  have visited : mark.performAll forest ignore [.next] = some ([.visited (.leaf letter)],
      mark.steppedTo (⟨path, number + 1⟩ :: around)) := by
    simp only [performAll, perform, next_leaf stands reached here, Option.bind_eq_bind,
      Option.bind_some]
  refine ⟨steps, told, mark.steppedTo (⟨path, number + 1⟩ :: around), ?_, ?_⟩
  · rw [List.replicate_succ']
    exact performAll_append made visited
  · simp [passed?, Stop.view]

end Bookmark
end LSystem
