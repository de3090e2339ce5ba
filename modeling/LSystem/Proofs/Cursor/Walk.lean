import LSystem.Cursor.Basic

namespace LSystem

/-!
# Walks

A walk takes one step at a time, and between two steps all that is known of it
is its place.  The place still says exactly which steps are to come: the rest of
its own level, and then, level by level outwards, the end of a branch and the
rest of the level around it.  Main statement: after any number of steps from the
root of a forest, the steps to come are the visits of the forest without those
already made.
-/

variable {V : Type}

namespace Level

/-- What lies at or before the focus, nearest first. -/
def passed (level : Level V) : List (Element V) := level.focus.toList ++ level.left

end Level

namespace Place

/-! ## One step -/

/-- What one step can be.  A leaf ahead comes into focus, a branch ahead comes
into focus and is entered, and at the end of a branch the walk returns to the
level around it. -/
inductive Step : Place V → Visit V → Place V → Prop where
  | leaf (left : List (Element V)) (focus : Option (Element V)) (letter : Module V)
      (right : List (Element V)) (enclosing : List (Level V)) :
      Step ⟨⟨left, focus, .leaf letter :: right⟩, enclosing⟩ (.leaf letter)
        ⟨⟨focus.toList ++ left, some (.leaf letter), right⟩, enclosing⟩
  | enter (left : List (Element V)) (focus : Option (Element V)) (contents : Forest V)
      (right : List (Element V)) (enclosing : List (Level V)) :
      Step ⟨⟨left, focus, .branch contents :: right⟩, enclosing⟩ .enter
        ⟨.start contents, ⟨focus.toList ++ left, some (.branch contents), right⟩ :: enclosing⟩
  | exit (left : List (Element V)) (focus : Option (Element V)) (outer : Level V)
      (around : List (Level V)) :
      Step ⟨⟨left, focus, []⟩, outer :: around⟩ .exit ⟨outer, around⟩

theorem step?_eq_some_iff {place next : Place V} {visit : Visit V} :
    place.step? = some (visit, next) ↔ Step place visit next := by
  constructor
  · intro taken
    rcases place with ⟨⟨left, focus, right⟩, enclosing⟩
    rcases right with _ | ⟨letter | contents, right⟩
    · cases enclosing with
      | nil => cases taken
      | cons outer around => cases taken; exact .exit left focus outer around
    · cases taken; exact .leaf left focus letter right enclosing
    · cases taken; exact .enter left focus contents right enclosing
  · intro step
    cases step <;> rfl

/-- How a step changes the number of levels that a walk is on. -/
theorem Step.length_enclosing {place next : Place V} {visit : Visit V}
    (step : Step place visit next) :
    match visit with
    | .enter => next.enclosing.length = place.enclosing.length + 1
    | .exit => place.enclosing.length = next.enclosing.length + 1
    | .leaf _ => next.enclosing.length = place.enclosing.length := by
  cases step <;> rfl

/-! ## The steps to come -/

/-- The steps that a walk still has to take. -/
def ahead (place : Place V) : List (Visit V) :=
  Forest.visits place.level.right ++
    place.enclosing.flatMap fun outer => .exit :: Forest.visits outer.right

@[simp]
theorem ahead_root (forest : Forest V) : (root forest).ahead = Forest.visits forest := by
  simp [ahead, root, Level.start]

theorem Step.ahead {place next : Place V} {visit : Visit V} (step : Step place visit next) :
    place.ahead = visit :: next.ahead := by
  cases step <;> simp [Place.ahead, Level.start]

theorem step?_eq_none_iff {place : Place V} : place.step? = none ↔ place.ahead = [] := by
  constructor
  · intro stopped
    rcases place with ⟨⟨left, focus, right⟩, enclosing⟩
    rcases right with _ | ⟨_ | _, _⟩
    · cases enclosing with
      | nil => rfl
      | cons => cases stopped
    · cases stopped
    · cases stopped
  · intro exhausted
    rcases taken : place.step? with _ | ⟨visit, next⟩
    · rfl
    · have followed := (step?_eq_some_iff.mp taken).ahead
      rw [exhausted] at followed
      cases followed

/-- A place at the end of a walk is at the end of the outermost level. -/
theorem of_ahead_eq_nil {place : Place V} (exhausted : place.ahead = []) :
    place.level.right = [] ∧ place.enclosing = [] := by
  rcases place with ⟨⟨left, focus, right⟩, enclosing⟩
  have stopped := step?_eq_none_iff.mpr exhausted
  rcases right with _ | ⟨_ | _, _⟩
  · cases enclosing with
    | nil => exact ⟨rfl, rfl⟩
    | cons => cases stopped
  · cases stopped
  · cases stopped

end Place

theorem Cursor.hasNext_iff {cursor : Cursor V} :
    cursor.hasNext = true ↔ 0 < cursor.position.ahead.length := by
  rw [Cursor.hasNext_eq_isSome_step?, Option.isSome_iff_ne_none, ne_eq,
    Place.step?_eq_none_iff, List.length_pos_iff]

theorem Cursor.step_of_next {cursor moved : Cursor V} {visit : Visit V}
    (made : cursor.next = .ok (visit, moved)) :
    Place.Step cursor.position visit moved.position := by
  rw [Cursor.next] at made
  split at made
  · next taken =>
      cases made
      exact Place.step?_eq_some_iff.mp taken
  · cases made

/-! ## Many steps -/

namespace Place

/-- Where a walk over a forest stands after a number of steps, if it goes on for
that long. -/
def after (forest : Forest V) : Nat → Option (Place V)
  | 0 => some (root forest)
  | steps + 1 => (after forest steps).bind fun place => place.step?.map (·.2)

theorem after_succ {forest : Forest V} {steps : Nat} {place next : Place V} {visit : Visit V}
    (reached : after forest steps = some place) (step : Step place visit next) :
    after forest (steps + 1) = some next := by
  rw [after, reached, Option.bind_some, step?_eq_some_iff.mpr step]
  rfl

/-- What holds at the root and is kept by every step holds wherever a walk gets. -/
theorem after_induction {forest : Forest V} {motive : Nat → Place V → Prop}
    (root : motive 0 (root forest))
    (step : ∀ steps place visit next, Step place visit next → motive steps place →
      motive (steps + 1) next)
    {steps : Nat} {place : Place V} (reached : after forest steps = some place) :
    motive steps place := by
  induction steps generalizing place with
  | zero => cases reached; exact root
  | succ steps inductionHypothesis =>
      rw [after, Option.bind_eq_some_iff] at reached
      rcases reached with ⟨before, reachedBefore, moved⟩
      rcases Option.map_eq_some_iff.mp moved with ⟨⟨visit, next⟩, taken, rfl⟩
      exact step steps before visit next (step?_eq_some_iff.mp taken)
        (inductionHypothesis reachedBefore)

/-- The steps to come are the visits of the forest without those already made. -/
theorem visits_of_after {forest : Forest V} {steps : Nat} {place : Place V}
    (reached : after forest steps = some place) :
    steps ≤ Forest.size forest ∧ place.ahead = (Forest.visits forest).drop steps := by
  rw [← Forest.length_visits]
  refine after_induction (motive := fun steps place =>
    steps ≤ (Forest.visits forest).length ∧ place.ahead = (Forest.visits forest).drop steps)
    ⟨Nat.zero_le _, ahead_root forest⟩ ?_ reached
  rintro steps place visit next step ⟨-, stepsAhead⟩
  rw [step.ahead] at stepsAhead
  have inside : steps < (Forest.visits forest).length := by
    have nonempty := congrArg List.length stepsAhead
    rw [List.length_cons, List.length_drop] at nonempty
    omega
  refine ⟨inside, ?_⟩
  rw [List.drop_eq_getElem_cons inside] at stepsAhead
  exact (List.cons.inj stepsAhead).2

theorem length_ahead_of_after {forest : Forest V} {steps : Nat} {place : Place V}
    (reached : after forest steps = some place) :
    place.ahead.length + steps = Forest.size forest := by
  rcases visits_of_after reached with ⟨inside, stepsAhead⟩
  rw [stepsAhead, List.length_drop, Forest.length_visits]
  omega

end Place

/-! ## Cursors that have just moved -/

/-- A cursor whose last step has led to a place, with no lookup since. -/
def Cursor.on (place : Place V) : Cursor V := ⟨place, some place⟩

@[simp]
theorem Cursor.position_lookUp (ignore : List Symbol) (axis : Axis) (cursor : Cursor V) :
    (cursor.lookUp ignore axis).2.position = cursor.position := by
  unfold Cursor.lookUp
  split <;> rfl

@[simp]
theorem Cursor.position_navigate (ignore : List Symbol) (direction : Direction)
    (cursor : Cursor V) : (cursor.navigate ignore direction).2.position = cursor.position := by
  unfold Cursor.navigate
  rw [Cursor.position_lookUp]
  split <;> rfl

end LSystem
