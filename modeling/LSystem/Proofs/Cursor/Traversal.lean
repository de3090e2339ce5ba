import LSystem.Proofs.Cursor.Walk

namespace LSystem

/-!
# Traversal

All that a host can ask of a cursor, as data, so that statements can be made
about every order in which it may ask.  Lookups move the context and steps move
the position, so the walk takes no notice of the lookups in between.  Main
statement: whatever is asked between the steps, the steps made are the first
visits of the forest, and a step is refused exactly when all visits have been
made.
-/

variable {V : Type}

/-! ## Walking on -/

namespace Place

/-- Where a walk gets from a place by trying a number of steps.  At the end of
the forest it stays where it is. -/
def onward : Nat → Place V → Place V
  | 0, place => place
  | steps + 1, place =>
      match place.step? with
      | none => place
      | some (_, next) => onward steps next

theorem onward_of_finished {place : Place V} (stopped : place.step? = none) (steps : Nat) :
    place.onward steps = place := by
  cases steps with
  | zero => rfl
  | succ steps => simp only [onward, stopped]

theorem onward_add (first second : Nat) (place : Place V) :
    place.onward (first + second) = (place.onward first).onward second := by
  induction first generalizing place with
  | zero => rw [Nat.zero_add, onward]
  | succ first inductionHypothesis =>
      rw [Nat.succ_add]
      rcases taken : place.step? with _ | ⟨visit, next⟩
      · simp only [onward_of_finished taken]
      · simp only [onward, taken]
        exact inductionHypothesis next

theorem ahead_onward (steps : Nat) (place : Place V) :
    (place.onward steps).ahead = place.ahead.drop steps := by
  induction steps generalizing place with
  | zero => rfl
  | succ steps inductionHypothesis =>
      rcases taken : place.step? with _ | ⟨visit, next⟩
      · rw [onward_of_finished taken, step?_eq_none_iff.mp taken, List.drop_nil]
      · simp only [onward, taken]
        rw [inductionHypothesis, (step?_eq_some_iff.mp taken).ahead, List.drop_succ_cons]

end Place

namespace Cursor

/-! ## Calls -/

/-- What a host can ask of a cursor. -/
inductive Call where
  | hasNext
  | next
  | resetContext
  | lookUp (axis : Axis)
  | navigate (direction : Direction)
deriving DecidableEq

/-- What a cursor answers. -/
inductive Reply (V : Type) where
  | goesOn (more : Bool)
  | visited (visit : Visit V)
  | refused (violation : ContractViolation)
  | reset
  | found (letter : Option (Module V))

/-- The step of the walk that an answer reports, if it reports one. -/
def Reply.visit? : Reply V → Option (Visit V)
  | .visited visit => some visit
  | _ => none

/-- Answers a call.  A step that is refused leaves the cursor as it is. -/
def perform (ignore : List Symbol) (cursor : Cursor V) : Call → Reply V × Cursor V
  | .hasNext => (.goesOn cursor.hasNext, cursor)
  | .next =>
      match cursor.next with
      | .error violation => (.refused violation, cursor)
      | .ok (visit, moved) => (.visited visit, moved)
  | .resetContext => (.reset, cursor.resetContext)
  | .lookUp axis => (.found (cursor.lookUp ignore axis).1, (cursor.lookUp ignore axis).2)
  | .navigate direction =>
      (.found (cursor.navigate ignore direction).1, (cursor.navigate ignore direction).2)

/-- Answers calls one after another. -/
def performAll (ignore : List Symbol) : List Call → Cursor V → List (Reply V) × Cursor V
  | [], cursor => ([], cursor)
  | call :: rest, cursor =>
      let (reply, moved) := cursor.perform ignore call
      let (replies, last) := performAll ignore rest moved
      (reply :: replies, last)

/-- The steps of the walk that a host has been told of. -/
def visitsMade (replies : List (Reply V)) : List (Visit V) := replies.filterMap Reply.visit?

/-! ## One call -/

variable (ignore : List Symbol)

/-- At the end of the forest a step is refused. -/
theorem perform_next_of_finished {cursor : Cursor V} (finished : cursor.hasNext = false) :
    cursor.perform ignore .next = (.refused .exhaustedWalk, cursor) := by
  have stopped : cursor.position.step? = none := by
    rw [hasNext_eq_isSome_step?] at finished
    exact Option.isSome_eq_false_iff.mp finished |> Option.isNone_iff_eq_none.mp
  simp only [perform, Cursor.next, stopped]

/-- Before the end a step is made, and lookups start over from its place. -/
theorem perform_next_of_step {cursor : Cursor V} {visit : Visit V} {next : Place V}
    (step : Place.Step cursor.position visit next) :
    cursor.perform ignore .next = (.visited visit, .on next) := by
  simp only [perform, Cursor.next, Place.step?_eq_some_iff.mpr step]
  rfl

/-- How many steps a call tries to make. -/
def Call.steps (call : Call) : Nat := if call = .next then 1 else 0

/-- What a call tells of the walk, and where it leaves it.  A step that is made
is the first of those to come; every other call leaves the walk alone. -/
theorem walk_perform (call : Call) (cursor : Cursor V) :
    (cursor.perform ignore call).1.visit?.toList = cursor.position.ahead.take call.steps ∧
      (cursor.perform ignore call).2.position = cursor.position.onward call.steps := by
  cases call with
  | hasNext => exact ⟨rfl, rfl⟩
  | resetContext => exact ⟨rfl, rfl⟩
  | lookUp axis => exact ⟨rfl, cursor.position_lookUp ignore axis⟩
  | navigate direction => exact ⟨rfl, cursor.position_navigate ignore direction⟩
  | next =>
      rcases taken : cursor.position.step? with _ | ⟨visit, next⟩
      · have finished : cursor.hasNext = false := by
          rw [hasNext_eq_isSome_step?, taken, Option.isSome_none]
        rw [perform_next_of_finished ignore finished, Place.onward_of_finished taken,
          Place.step?_eq_none_iff.mp taken, List.take_nil]
        exact ⟨rfl, rfl⟩
      · have step := Place.step?_eq_some_iff.mp taken
        rw [perform_next_of_step ignore step, step.ahead]
        constructor
        · rfl
        · simp only [Call.steps, if_true, Place.onward, taken]
          rfl

/-! ## Many calls -/

/-- Only the number of steps asked for counts: the steps made are the first of
those that were to come, and the walk stands where they lead. -/
theorem walk_performAll (calls : List Call) (cursor : Cursor V) :
    visitsMade (performAll ignore calls cursor).1 =
        cursor.position.ahead.take (calls.count .next) ∧
      (performAll ignore calls cursor).2.position =
        cursor.position.onward (calls.count .next) := by
  induction calls generalizing cursor with
  | nil => exact ⟨rfl, rfl⟩
  | cons call rest inductionHypothesis =>
      have first := walk_perform ignore call cursor
      have later := inductionHypothesis (cursor.perform ignore call).2
      have counted : (call :: rest).count .next = call.steps + rest.count .next := by
        rw [List.count_cons, Nat.add_comm]
        simp only [Call.steps, beq_iff_eq]
      rw [counted]
      constructor
      · rw [List.take_add, ← first.1, ← Place.ahead_onward, ← first.2, ← later.1]
        simp only [performAll, visitsMade, List.filterMap_cons]
        cases (cursor.perform ignore call).1.visit? <;> rfl
      · rw [Place.onward_add, ← first.2]
        exact later.2

/-! ## Walks over a forest -/

/-- How the steps that a host has been told of relate to the forest, and what
the next step is going to be. -/
structure Traverses (forest : Forest V) (made : List (Visit V)) (cursor : Cursor V) : Prop where
  isPrefix : made <+: Forest.visits forest
  /-- The walk goes on exactly as long as there are visits left. -/
  hasNext_iff : cursor.hasNext = true ↔ made ≠ Forest.visits forest
  /-- A walk that goes on makes the visit that comes next. -/
  next_of_hasNext : cursor.hasNext = true →
    ∃ visit moved, cursor.perform ignore .next = (.visited visit, moved) ∧
      made ++ [visit] <+: Forest.visits forest
  /-- A step is refused at the end only, and then nothing changes. -/
  refused_iff : ∀ violation moved,
    cursor.perform ignore .next = (.refused violation, moved) ↔
      cursor.hasNext = false ∧ violation = .exhaustedWalk ∧ moved = cursor

/-- What has been made and what is to come determine all the rest. -/
theorem traverses_of_append {forest : Forest V} {made : List (Visit V)} {cursor : Cursor V}
    (whole : made ++ cursor.position.ahead = Forest.visits forest) :
    Traverses ignore forest made cursor where
  isPrefix := ⟨cursor.position.ahead, whole⟩
  hasNext_iff := by
    rw [hasNext_iff, ← whole, List.length_pos_iff, ne_eq, ne_eq, List.self_eq_append_right]
  next_of_hasNext goesOn := by
    rw [hasNext_eq_isSome_step?, Option.isSome_iff_exists] at goesOn
    rcases goesOn with ⟨⟨visit, next⟩, taken⟩
    have step := Place.step?_eq_some_iff.mp taken
    refine ⟨visit, .on next, perform_next_of_step ignore step, next.ahead, ?_⟩
    rw [List.append_assoc, List.singleton_append, ← step.ahead, whole]
  refused_iff violation moved := by
    constructor
    · intro refused
      rcases taken : cursor.position.step? with _ | ⟨visit, next⟩
      · have finished : cursor.hasNext = false := by
          rw [hasNext_eq_isSome_step?, taken, Option.isSome_none]
        rw [perform_next_of_finished ignore finished] at refused
        cases refused
        exact ⟨finished, rfl, rfl⟩
      · rw [perform_next_of_step ignore (Place.step?_eq_some_iff.mp taken)] at refused
        cases refused
    · rintro ⟨finished, rfl, rfl⟩
      exact perform_next_of_finished ignore finished

/-- Whatever is asked of a cursor over a forest, in whatever order, the steps it
has made are the first visits of the forest, as many as it was asked for. -/
theorem traverses_start (forest : Forest V) (calls : List Call) :
    let (replies, cursor) := performAll ignore calls (.start forest)
    visitsMade replies = (Forest.visits forest).take (calls.count .next) ∧
      Traverses ignore forest (visitsMade replies) cursor := by
  have walk := walk_performAll ignore calls (.start forest)
  have ahead := congrArg Place.ahead walk.2
  rw [Place.ahead_onward] at ahead
  have fromRoot : (start forest).position.ahead = Forest.visits forest := Place.ahead_root forest
  rw [fromRoot] at walk ahead
  refine ⟨?_, traverses_of_append ignore ?_⟩
  · exact walk.1
  · rw [walk.1, ahead, List.take_append_drop]

end Cursor
end LSystem
