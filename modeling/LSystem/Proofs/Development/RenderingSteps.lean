import LSystem.Proofs.Development.Separation

namespace LSystem

/-!
# Steps and chunks of a rendering

A rendering in progress has its walk before it and the count of its calls behind
it.  Every step takes one from the walk and makes the call for it; a chunk does so
several times.  What steps come to is kept as a list of visits and a list of
calls, so steps in a row are put together by appending the lists.
-/

variable {V σ : Type}

namespace Development

/-- The steps that the rendering in progress still has to take. -/
def visitsAhead (system : Development V σ) : List (Visit V) :=
  match system.rendering with
  | none => []
  | some rendering => rendering.cursor.position.ahead

/-- The tally of the rendering in progress, or of the last one if there is none. -/
def renderTally (system : Development V σ) : Option RenderTally :=
  if system.isRendering then system.rendering.map (·.tally) else system.lastRendering

theorem length_visitsAhead (system : Development V σ) :
    system.visitsAhead.length = system.renderingLeft := by
  unfold visitsAhead renderingLeft
  cases system.rendering with
  | none => rfl
  | some rendering => rfl

theorem visitsAhead_of_idle {system : Development V σ} (idle : system.isRendering = false) :
    system.visitsAhead = [] := by
  rw [isRendering_eq_false_iff, ← length_visitsAhead] at idle
  exact List.length_eq_zero_iff.mp idle

theorem exists_rendering {system : Development V σ} (running : system.isRendering = true) :
    ∃ rendering, system.rendering = some rendering ∧ rendering.hasNext = true := by
  unfold isRendering at running
  rcases parked : system.rendering with _ | rendering
  · rw [parked] at running
    cases running
  · rw [parked] at running
    exact ⟨rendering, rfl, running⟩

theorem visitsAhead_of_parked {system : Development V σ} {rendering : Rendering V}
    (parked : system.rendering = some rendering) :
    system.visitsAhead = rendering.cursor.position.ahead := by
  unfold visitsAhead
  rw [parked]

@[simp]
theorem visitsAhead_parkRendering (rendering : Rendering V) (system : Development V σ) :
    (system.parkRendering rendering).visitsAhead = rendering.cursor.position.ahead := by
  unfold parkRendering
  split
  · rfl
  · next finished =>
      rw [Rendering.hasNext_iff, List.length_pos_iff, not_not] at finished
      exact finished.symm

@[simp]
theorem renderTally_parkRendering (rendering : Rendering V) (system : Development V σ) :
    (system.parkRendering rendering).renderTally = some rendering.tally := by
  unfold parkRendering
  cases ahead : rendering.hasNext with
  | true =>
      have running : ({ system with rendering := some rendering }).isRendering = true := ahead
      rw [if_pos rfl, renderTally, if_pos running]
      rfl
  | false => rfl

@[simp]
theorem actions_parkRendering (rendering : Rendering V) (system : Development V σ) :
    (system.parkRendering rendering).actions = system.actions := by
  unfold parkRendering
  split
  · rfl
  · rfl

@[simp]
theorem host_parkRendering (rendering : Rendering V) (system : Development V σ) :
    (system.parkRendering rendering).host = system.host := by
  unfold parkRendering
  split
  · rfl
  · rfl

/-- What a part of a rendering comes to: the steps that it takes, and the calls
that it makes. -/
structure Renders (walk : List (Visit V)) (calls : List (Call V σ))
    (system after : Development V σ) : Prop where
  ahead : system.visitsAhead = walk ++ after.visitsAhead
  host : after.host = Call.makeAll calls system.host
  tally : after.renderTally = system.renderTally.map (·.add walk.length calls.length)

namespace Renders

theorem none (system after : Development V σ) (host : after.host = system.host)
    (rendering : after.rendering = system.rendering)
    (lastRendering : after.lastRendering = system.lastRendering) :
    Renders [] [] system after where
  ahead := by
    unfold visitsAhead
    rw [rendering]
    rfl
  host := host
  tally := by
    unfold renderTally isRendering
    rw [rendering, lastRendering]
    exact Option.map_id'.symm

theorem append {firstWalk secondWalk : List (Visit V)} {firstCalls secondCalls : List (Call V σ)}
    {first second third : Development V σ} (earlier : Renders firstWalk firstCalls first second)
    (later : Renders secondWalk secondCalls second third) :
    Renders (firstWalk ++ secondWalk) (firstCalls ++ secondCalls) first third where
  ahead := by rw [earlier.ahead, later.ahead, List.append_assoc]
  host := by simp [later.host, earlier.host]
  tally := by
    have added (tally : RenderTally) :
        (tally.add firstWalk.length firstCalls.length).add secondWalk.length secondCalls.length =
          tally.add (firstWalk ++ secondWalk).length (firstCalls ++ secondCalls).length := by
      simp [RenderTally.add, Nat.add_assoc]
    rw [later.tally, earlier.tally, Option.map_map]
    exact congrArg (Option.map · first.renderTally) (funext added)

end Renders

/-- One step of the rendering in progress. -/
theorem renders_stepRendering {system : Development V σ} (running : system.isRendering = true) :
    ∃ visit after, system.stepRendering = .ok after ∧ after.actions = system.actions ∧
      Renders [visit] (callsOf (fun _ => system.actions) [visit]) system after := by
  rcases exists_rendering running with ⟨rendering, parked, ahead⟩
  rcases Rendering.exists_call ahead system.actions system.host with
    ⟨visit, next, taken, moved, counted⟩
  refine ⟨visit, ({ system with
    host := Call.makeAll (visit.call? system.actions).toList system.host }).parkRendering next,
    ?_, actions_parkRendering next _, ?_⟩
  · unfold stepRendering
    rw [parked]
    dsimp only
    rw [taken]
    rfl
  · constructor
    · simp [visitsAhead_of_parked parked, moved.ahead]
    · simp
    · have before : system.renderTally = some rendering.tally := by
        rw [renderTally, if_pos running, parked, Option.map_some]
      simp [before, counted]

/-- A chunk of a rendering takes the next steps, as many as it may. -/
theorem renders_advanceRendering (limit : Nat) (system : Development V σ) :
    (system.advanceRendering limit).2.actions = system.actions ∧
      Renders (system.visitsAhead.take limit)
        (callsOf (fun _ => system.actions) (system.visitsAhead.take limit)) system
        (system.advanceRendering limit).2 := by
  induction limit generalizing system with
  | zero => exact ⟨rfl, .none system system rfl rfl rfl⟩
  | succ limit inductionHypothesis =>
      cases running : system.isRendering with
      | true =>
          rcases renders_stepRendering running with ⟨visit, after, stepped, kept, first⟩
          rcases inductionHypothesis after with ⟨onward, rest⟩
          rw [advanceRendering_succ running stepped]
          refine ⟨onward.trans kept, ?_⟩
          rw [kept] at rest
          rw [first.ahead, List.singleton_append, List.take_succ_cons]
          have calls : callsOf (fun _ => system.actions) [visit] ++
              callsOf (fun _ => system.actions) (after.visitsAhead.take limit) =
                callsOf (fun _ => system.actions) (visit :: after.visitsAhead.take limit) :=
            (callsOf_append _ [visit] _).symm
          rw [← calls]
          exact first.append rest
      | false =>
          rw [advanceRendering_of_idle running, visitsAhead_of_idle running]
          exact ⟨rfl, .none system system rfl rfl rfl⟩

/-- A chunk has as many steps as it may have and as are left. -/
theorem advanceRendering_count (limit : Nat) (system : Development V σ) :
    (system.advanceRendering limit).1 = min limit system.renderingLeft := by
  induction limit generalizing system with
  | zero => exact (Nat.zero_min _).symm
  | succ limit inductionHypothesis =>
      cases running : system.isRendering with
      | true =>
          rcases exists_stepRendering running with ⟨after, stepped⟩
          have fewer := renderingLeft_of_stepRendering running stepped
          rw [advanceRendering_succ running stepped, inductionHypothesis]
          omega
      | false =>
          rw [advanceRendering_of_idle running, isRendering_eq_false_iff.mp running]
          exact (Nat.min_zero _).symm

end Development
end LSystem
