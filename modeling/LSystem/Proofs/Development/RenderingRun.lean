import LSystem.Proofs.Development.RenderingSteps

namespace LSystem

/-!
# Runs of a rendering

A rendering that has been begun goes on through whatever else the host does with
the system.  The host may bind actions anew, change the rules and take steps of a
pass; only a completed pass, a reset or another rendering puts an end to it.
Main statement: up to there the calls are those for the walk over the generation,
every step of it with the actions that the host has bound by then, and afterwards
there are none.
-/

variable {V σ : Type}

namespace Operation

/-- The most steps of the rendering in progress that an operation can take. -/
def renderingSteps : Operation V σ → Nat
  | stepRendering => 1
  | advanceRendering limit => limit
  | _ => 0

/-- The actions that an operation leaves bound. -/
def rebind (actions : Actions V σ) : Operation V σ → Actions V σ
  | bind symbol action => actions.insert symbol action
  | unbind symbol => actions.erase symbol
  | _ => actions

/-- Whether an operation gives up the rendering in progress by beginning anew. -/
def startsOver : Operation V σ → Bool
  | reset => true
  | render => true
  | beginRendering => true
  | _ => false

end Operation

/-- The steps of a rendering that operations ask for, all together. -/
def stepsAsked (operations : List (Operation V σ)) : Nat :=
  (operations.map (·.renderingSteps)).sum

/-- The actions that are bound when operations take a step of a rendering.  Steps
are counted from the first one that the operations take. -/
def actionsInForce (actions : Actions V σ) : List (Operation V σ) → Nat → Actions V σ
  | [], _ => actions
  | operation :: rest, step =>
      if step < operation.renderingSteps then actions
      else actionsInForce (operation.rebind actions) rest (step - operation.renderingSteps)

@[simp]
theorem stepsAsked_cons (operation : Operation V σ) (rest : List (Operation V σ)) :
    stepsAsked (operation :: rest) = operation.renderingSteps + stepsAsked rest := by
  simp [stepsAsked]

theorem actionsInForce_add (actions : Actions V σ) (operation : Operation V σ)
    (rest : List (Operation V σ)) (step : Nat) :
    actionsInForce actions (operation :: rest) (operation.renderingSteps + step) =
      actionsInForce (operation.rebind actions) rest step := by
  have beyond : ¬ operation.renderingSteps + step < operation.renderingSteps := by omega
  rw [actionsInForce, if_neg beyond, Nat.add_sub_cancel_left]

/-- The calls that operations make on a walk are those of the first operation, with
the actions bound before it, and those of the others. -/
theorem callsOf_actionsInForce_cons (actions : Actions V σ) (operation : Operation V σ)
    (rest : List (Operation V σ)) (walk : List (Visit V)) :
    callsOf (actionsInForce actions (operation :: rest))
        (walk.take (stepsAsked (operation :: rest))) =
      callsOf (fun _ => actions) (walk.take operation.renderingSteps) ++
        callsOf (actionsInForce (operation.rebind actions) rest)
          ((walk.drop operation.renderingSteps).take (stepsAsked rest)) := by
  rw [stepsAsked_cons, List.take_add, callsOf_append]
  congr 1
  · apply callsOf_congr
    intro step inside
    rw [List.length_take] at inside
    have within : step < operation.renderingSteps := by omega
    rw [actionsInForce, if_pos within]
  · apply callsOf_congr
    intro step inside
    rw [List.length_take, List.length_drop] at inside
    -- A step is left for the rest only if the first operation has had all of its own.
    have whole : (walk.take operation.renderingSteps).length = operation.renderingSteps := by
      rw [List.length_take]
      omega
    rw [whole]
    exact actionsInForce_add actions operation rest step

namespace Development

open Operation

/-- Operations that go on with the rendering in progress: none of them begins
anew, and no pass is completed. -/
structure Undisturbed (operations : List (Operation V σ)) (system : Development V σ) : Prop where
  onward : ∀ operation ∈ operations, operation.startsOver = false
  uncompleted : (performAll operations system).generation = system.generation

/-! ## One operation -/

theorem ne_reset_of_onward {operation : Operation V σ} (onward : operation.startsOver = false) :
    operation ≠ .reset := by
  rintro rfl
  cases onward

/-- Without a reset no generation is taken back. -/
theorem generation_le_perform {operation : Operation V σ} (onward : operation ≠ .reset)
    (system : Development V σ) : system.generation ≤ (operation.perform system).2.generation := by
  cases concerned : operation.concernsRendering with
  | true =>
      have same := congrArg generation (bare_perform_of_concernsRendering concerned system)
      exact Nat.le_of_eq same.symm
  | false => exact (spares_perform concerned onward system).generation

/-- A single step is a chunk of one, even if it is refused. -/
theorem perform_stepRendering (system : Development V σ) :
    (Operation.stepRendering.perform system).2 = (system.advanceRendering 1).2 := by
  rw [perform.eq_def]
  cases running : system.isRendering with
  | true =>
      rcases exists_stepRendering running with ⟨after, stepped⟩
      rw [advanceRendering_succ running stepped]
      dsimp only
      rw [stepped]
      rfl
  | false =>
      rcases stepRendering_of_not_isRendering running with ⟨violation, refused⟩
      rw [advanceRendering_of_idle running]
      dsimp only
      rw [refused]

/-- An operation that is not about renderings takes no step of one. -/
theorem renders_of_apart {operation : Operation V σ} {system : Development V σ}
    (uncompleted : (operation.perform system).2.generation = system.generation)
    (apart : operation.concernsRendering = false) (onward : operation.startsOver = false) :
    (operation.perform system).2.actions = system.actions ∧
      Renders [] [] system (operation.perform system).2 := by
  have spared := spares_perform apart (ne_reset_of_onward onward) system
  have kept := spared.rendering
  rw [if_pos uncompleted] at kept
  exact ⟨spared.actions, .none system _ spared.host kept spared.lastRendering⟩

theorem renders_perform {operation : Operation V σ} (onward : operation.startsOver = false)
    {system : Development V σ}
    (uncompleted : (operation.perform system).2.generation = system.generation) :
    (operation.perform system).2.actions = operation.rebind system.actions ∧
      Renders (system.visitsAhead.take operation.renderingSteps)
        (callsOf (fun _ => system.actions) (system.visitsAhead.take operation.renderingSteps))
        system (operation.perform system).2 := by
  cases operation with
  | reset => cases onward
  | render => cases onward
  | beginRendering => cases onward
  | bind symbol action => exact ⟨rfl, .none system _ rfl rfl rfl⟩
  | unbind symbol => exact ⟨rfl, .none system _ rfl rfl rfl⟩
  | stepRendering =>
      rw [perform_stepRendering]
      exact renders_advanceRendering 1 system
  | advanceRendering limit =>
      rw [perform_advanceRendering]
      exact renders_advanceRendering limit system
  | setRules => exact renders_of_apart uncompleted rfl rfl
  | generate => exact renders_of_apart uncompleted rfl rfl
  | generateMany => exact renders_of_apart uncompleted rfl rfl
  | beginPass => exact renders_of_apart uncompleted rfl rfl
  | stepPass => exact renders_of_apart uncompleted rfl rfl
  | advancePass => exact renders_of_apart uncompleted rfl rfl

/-! ## All operations -/

theorem generation_le_performAll {operations : List (Operation V σ)}
    (onward : ∀ operation ∈ operations, operation.startsOver = false)
    (system : Development V σ) : system.generation ≤ (performAll operations system).generation := by
  induction operations generalizing system with
  | nil => exact Nat.le_refl _
  | cons operation rest inductionHypothesis =>
      rw [List.forall_mem_cons] at onward
      rcases onward with ⟨here, later⟩
      have first := generation_le_perform (ne_reset_of_onward here) system
      exact Nat.le_trans first (inductionHypothesis later _)

theorem Undisturbed.of_cons {operation : Operation V σ} {rest : List (Operation V σ)}
    {system : Development V σ} (undisturbed : Undisturbed (operation :: rest) system) :
    operation.startsOver = false ∧
      (operation.perform system).2.generation = system.generation ∧
      Undisturbed rest (operation.perform system).2 := by
  rcases undisturbed with ⟨onward, uncompleted⟩
  rw [List.forall_mem_cons] at onward
  rcases onward with ⟨here, later⟩
  have whole : (performAll rest (operation.perform system).2).generation = system.generation :=
    uncompleted
  -- Generations only go up, so the one at the end pins down the one in between.
  have upward := generation_le_perform (ne_reset_of_onward here) system
  have further := generation_le_performAll later (operation.perform system).2
  refine ⟨here, by omega, later, by omega⟩

/-- What all operations together make of the rendering in progress. -/
theorem renders_performAll {operations : List (Operation V σ)} {system : Development V σ}
    (undisturbed : Undisturbed operations system) :
    Renders (system.visitsAhead.take (stepsAsked operations))
      (callsOf (actionsInForce system.actions operations)
        (system.visitsAhead.take (stepsAsked operations)))
      system (performAll operations system) := by
  induction operations generalizing system with
  | nil => exact .none system system rfl rfl rfl
  | cons operation rest inductionHypothesis =>
      rcases undisturbed.of_cons with ⟨onward, uncompleted, later⟩
      rcases renders_perform onward uncompleted with ⟨rebound, first⟩
      have onwards := inductionHypothesis later
      have ahead : (operation.perform system).2.visitsAhead =
          system.visitsAhead.drop operation.renderingSteps := by
        apply List.append_cancel_left
        rw [List.take_append_drop]
        exact first.ahead.symm
      rw [rebound, ahead] at onwards
      rw [callsOf_actionsInForce_cons, stepsAsked_cons, List.take_add]
      exact first.append onwards

/-- A rendering that goes on to some point has gone on to every earlier one. -/
theorem Undisturbed.of_append {earlier later : List (Operation V σ)} {system : Development V σ}
    (undisturbed : Undisturbed (earlier ++ later) system) : Undisturbed earlier system := by
  rcases undisturbed with ⟨onward, uncompleted⟩
  rw [List.forall_mem_append] at onward
  rw [performAll, List.foldl_append] at uncompleted
  have upward := generation_le_performAll onward.1 system
  have further := generation_le_performAll onward.2 (performAll earlier system)
  refine ⟨onward.1, Nat.le_antisymm ?_ upward⟩
  rw [← uncompleted]
  exact further

/-! ## From the beginning -/

@[simp]
theorem visitsAhead_beginRendering (system : Development V σ) :
    system.beginRendering.visitsAhead = Forest.visits system.current := by
  simp [beginRendering]

/-- What all operations together make of a rendering that has just been begun. -/
theorem renders_beginRendering {operations : List (Operation V σ)} {system : Development V σ}
    (undisturbed : Undisturbed operations system.beginRendering) :
    Renders ((Forest.visits system.current).take (stepsAsked operations))
      (callsOf (actionsInForce system.actions operations)
        ((Forest.visits system.current).take (stepsAsked operations)))
      system.beginRendering (performAll operations system.beginRendering) := by
  have renders := renders_performAll undisturbed
  have bound : system.beginRendering.actions = system.actions := actions_parkRendering _ system
  rwa [visitsAhead_beginRendering, bound] at renders

theorem renderingLeft_performAll {operations : List (Operation V σ)} {system : Development V σ}
    (undisturbed : Undisturbed operations system.beginRendering) :
    (performAll operations system.beginRendering).renderingLeft =
      Forest.size system.current - stepsAsked operations := by
  have walked := congrArg List.length (renders_beginRendering undisturbed).ahead
  rw [List.length_append, visitsAhead_beginRendering, length_visitsAhead, List.length_take,
    Forest.length_visits] at walked
  omega

/-- A rendering is finished when all of its steps have been asked for. -/
theorem take_stepsAsked_of_finished {operations : List (Operation V σ)}
    {system : Development V σ} (undisturbed : Undisturbed operations system.beginRendering)
    (finished : (performAll operations system.beginRendering).isRendering = false) :
    (Forest.visits system.current).take (stepsAsked operations) =
      Forest.visits system.current := by
  have left := renderingLeft_performAll undisturbed
  rw [isRendering_eq_false_iff.mp finished] at left
  apply List.take_of_length_le
  rw [Forest.length_visits]
  omega

theorem host_performAll {operations : List (Operation V σ)} {system : Development V σ}
    (undisturbed : Undisturbed operations system.beginRendering) :
    (performAll operations system.beginRendering).host =
      Call.makeAll
        (callsOf (actionsInForce system.actions operations)
          ((Forest.visits system.current).take (stepsAsked operations)))
        system.host := by
  have unchanged : system.beginRendering.host = system.host := host_parkRendering _ system
  rw [(renders_beginRendering undisturbed).host, unchanged]

theorem lastRendering_of_finished {operations : List (Operation V σ)} {system : Development V σ}
    (undisturbed : Undisturbed operations system.beginRendering)
    (finished : (performAll operations system.beginRendering).isRendering = false) :
    (performAll operations system.beginRendering).lastRendering =
      some ⟨Forest.size system.current,
        (callsOf (actionsInForce system.actions operations)
          (Forest.visits system.current)).length⟩ := by
  have begun : system.beginRendering.renderTally = some ⟨0, 0⟩ := renderTally_parkRendering _ system
  have tallied := (renders_beginRendering undisturbed).tally
  rw [take_stepsAsked_of_finished undisturbed finished, begun, renderTally,
    if_neg (Bool.eq_false_iff.mp finished), Option.map_some, RenderTally.add,
    Forest.length_visits, Nat.zero_add, Nat.zero_add] at tallied
  exact tallied

/-- Two finished renderings that have met with the same actions have made the same
calls. -/
theorem agree_of_finished {first second : List (Operation V σ)} {system : Development V σ}
    (firstUndisturbed : Undisturbed first system.beginRendering)
    (firstFinished : (performAll first system.beginRendering).isRendering = false)
    (secondUndisturbed : Undisturbed second system.beginRendering)
    (secondFinished : (performAll second system.beginRendering).isRendering = false)
    (same : ∀ step < Forest.size system.current,
      actionsInForce system.actions first step = actionsInForce system.actions second step) :
    (performAll first system.beginRendering).host =
        (performAll second system.beginRendering).host ∧
      (performAll first system.beginRendering).lastRendering =
        (performAll second system.beginRendering).lastRendering := by
  have calls : callsOf (actionsInForce system.actions first) (Forest.visits system.current) =
      callsOf (actionsInForce system.actions second) (Forest.visits system.current) := by
    apply callsOf_congr
    rwa [Forest.length_visits]
  constructor
  · rw [host_performAll firstUndisturbed, host_performAll secondUndisturbed,
      take_stepsAsked_of_finished firstUndisturbed firstFinished,
      take_stepsAsked_of_finished secondUndisturbed secondFinished, calls]
  · rw [lastRendering_of_finished firstUndisturbed firstFinished,
      lastRendering_of_finished secondUndisturbed secondFinished, calls]

/-! ## In one go -/

theorem performAll_advanceRendering (limit : Nat) (system : Development V σ) :
    performAll [.advanceRendering limit] system = (system.advanceRendering limit).2 := by
  simp [performAll]

/-- A whole rendering is one chunk of it. -/
theorem render_eq_performAll (system : Development V σ) :
    system.render =
      performAll [.advanceRendering (Forest.size system.current)] system.beginRendering := by
  simp [performAll, render]

theorem undisturbed_advanceRendering (limit : Nat) (system : Development V σ) :
    Undisturbed [.advanceRendering limit] system where
  onward := by
    rw [List.forall_mem_singleton]
    rfl
  uncompleted := by
    rw [performAll_advanceRendering]
    exact congrArg (fun bare => bare.generation) (bare_advanceRendering limit system)

/-- Steps of a rendering are one chunk, however they are grouped. -/
theorem performAll_eq_advanceRendering {operations : List (Operation V σ)}
    (portions : ∀ operation ∈ operations,
      operation = .stepRendering ∨ ∃ limit, operation = .advanceRendering limit)
    (system : Development V σ) :
    performAll operations system = (system.advanceRendering (stepsAsked operations)).2 := by
  induction operations generalizing system with
  | nil => rfl
  | cons operation rest inductionHypothesis =>
      rw [List.forall_mem_cons] at portions
      have first : (operation.perform system).2 =
          (system.advanceRendering operation.renderingSteps).2 := by
        rcases portions.1 with rfl | ⟨limit, rfl⟩
        · exact perform_stepRendering system
        · rw [perform_advanceRendering]
          rfl
      rw [stepsAsked_cons, advanceRendering_add, ← first]
      exact inductionHypothesis portions.2 (operation.perform system).2

/-- All ways to finish a rendering come to the same. -/
theorem advanceRendering_eq_of_finished {first second : Nat} {system : Development V σ}
    (firstFinished : (system.advanceRendering first).2.isRendering = false)
    (secondFinished : (system.advanceRendering second).2.isRendering = false) :
    system.advanceRendering first = system.advanceRendering second := by
  rcases Nat.le_total first second with more | more
  · exact (advanceRendering_of_le firstFinished more).symm
  · exact advanceRendering_of_le secondFinished more

/-! ## The end of a rendering -/

/-- What puts an end to a rendering in progress leaves none. -/
theorem rendering_eq_none_of_ended {operation : Operation V σ} {system : Development V σ}
    (ended : operation = .reset ∨
      (operation.perform system).2.generation ≠ system.generation) :
    (operation.perform system).2.rendering = none ∧
      (operation.perform system).2.host = system.host := by
  by_cases again : operation = .reset
  · rw [again]
    exact ⟨rfl, rfl⟩
  · have completed := ended.resolve_left again
    cases concerned : operation.concernsRendering with
    | true =>
        have same := congrArg generation (bare_perform_of_concernsRendering concerned system)
        exact absurd same completed
    | false =>
        have spared := spares_perform concerned again system
        refine ⟨?_, spared.host⟩
        rw [spared.rendering, if_neg completed]

/-- Without a rendering no action is called until one is begun. -/
theorem idle_perform {operation : Operation V σ}
    (unbegun : operation ≠ .render ∧ operation ≠ .beginRendering) {system : Development V σ}
    (idle : system.rendering = none) :
    (operation.perform system).2.rendering = none ∧
      (operation.perform system).2.host = system.host := by
  have stopped : system.isRendering = false := by
    unfold isRendering
    rw [idle]
    rfl
  -- What would end a rendering leaves none, and everything else leaves what there is.
  by_cases ended : operation = .reset ∨ (operation.perform system).2.generation ≠ system.generation
  · exact rendering_eq_none_of_ended ended
  · rw [not_or, not_not] at ended
    cases concerned : operation.concernsRendering with
    | false =>
        have spared := spares_perform concerned ended.1 system
        refine ⟨?_, spared.host⟩
        rw [spared.rendering, if_pos ended.2, idle]
    | true =>
        cases operation with
        | bind => exact ⟨idle, rfl⟩
        | unbind => exact ⟨idle, rfl⟩
        | render => exact absurd rfl unbegun.1
        | beginRendering => exact absurd rfl unbegun.2
        | stepRendering =>
            rw [perform_stepRendering, advanceRendering_of_idle stopped]
            exact ⟨idle, rfl⟩
        | advanceRendering limit =>
            rw [perform_advanceRendering, advanceRendering_of_idle stopped]
            exact ⟨idle, rfl⟩
        | _ => cases concerned

theorem idle_performAll {operations : List (Operation V σ)}
    (unbegun : ∀ operation ∈ operations, operation ≠ .render ∧ operation ≠ .beginRendering)
    {system : Development V σ} (idle : system.rendering = none) :
    (performAll operations system).host = system.host := by
  induction operations generalizing system with
  | nil => rfl
  | cons operation rest inductionHypothesis =>
      rw [List.forall_mem_cons] at unbegun
      rcases idle_perform unbegun.1 idle with ⟨still, unchanged⟩
      exact (inductionHypothesis unbegun.2 still).trans unchanged

/-! ## Renderings render the visits -/

/-- What it means that a rendering which has been begun with a system, and has gone
on through operations until another system was reached, renders the generation. -/
structure RendersVisits (system : Development V σ) (operations : List (Operation V σ))
    (reached : Development V σ) : Prop where
  /-- The host is changed by the calls for the steps that have been asked for, each
  with the action that is bound at its step, and by nothing else. -/
  called : reached.host =
    Call.makeAll
      (callsOf (actionsInForce system.actions operations)
        ((Forest.visits system.current).take (stepsAsked operations)))
      system.host
  /-- So actions that note down their calls have noted down just the steps that have
  an action, in order and with their arguments. -/
  recorded : ∀ note : σ → List (Symbol × List V),
    (∀ step, (actionsInForce system.actions operations step).Record note) →
    note reached.host =
      note system.host ++
        (((Forest.visits system.current).take (stepsAsked operations)).zipIdx.filter fun entry =>
            (actionsInForce system.actions operations entry.2).isBound entry.1.symbol).map
          fun entry => (entry.1.symbol, entry.1.arguments)
  /-- A chunk has had as many steps as it may have and as were left, and says so. -/
  counted : ∀ earlier limit later, operations = earlier ++ .advanceRendering limit :: later →
    ((Operation.advanceRendering limit).perform (performAll earlier system.beginRendering)).1 =
      .ok (some (min limit (Forest.size system.current - stepsAsked earlier)))
  /-- The rendering is in progress until all steps have been asked for. -/
  inProgress : reached.isRendering = true ↔ stepsAsked operations < Forest.size system.current
  /-- The report tells the size of the generation and the number of calls. -/
  finished : reached.isRendering = false →
    reached.lastRendering =
      some ⟨Forest.size system.current,
        (callsOf (actionsInForce system.actions operations)
          (Forest.visits system.current)).length⟩
  /-- If the actions have stayed as they were it all comes to what one whole rendering
  does, whatever other parts of the system the operations have changed. -/
  inOneGo : reached.isRendering = false →
    (∀ step < Forest.size system.current,
      actionsInForce system.actions operations step = system.actions) →
    reached.host = system.render.host ∧ reached.lastRendering = system.render.lastRendering
  /-- If there have been no other operations it leaves the same system. -/
  regrouped : reached.isRendering = false →
    (∀ operation ∈ operations,
      operation = .stepRendering ∨ ∃ limit, operation = .advanceRendering limit) →
    reached = system.render
  /-- At any point a reset or a completed pass puts an end to the rendering, after
  which no action is called until another one is begun. -/
  ended : ∀ operation : Operation V σ,
    operation = .reset ∨ (operation.perform reached).2.generation ≠ reached.generation →
    ∀ later : List (Operation V σ),
      (∀ other ∈ later, other ≠ .render ∧ other ≠ .beginRendering) →
      (performAll (operation :: later) reached).host = reached.host
  /-- A rendering that is begun at that point calls no action by that, and it does not
  depend on the one before. -/
  begunAnew : ∀ old : Option (Rendering V),
    reached.beginRendering.host = reached.host ∧
      ({ reached with rendering := old }).beginRendering = reached.beginRendering

/-- However a rendering is cut into portions, and whatever actions are bound on the
way, it renders the generation as long as nothing puts an end to it. -/
theorem rendersVisits_of_undisturbed {system : Development V σ}
    {operations : List (Operation V σ)}
    (undisturbed : Undisturbed operations system.beginRendering) :
    RendersVisits system operations (performAll operations system.beginRendering) := by
  have left := renderingLeft_performAll undisturbed
  exact
    { called := host_performAll undisturbed
      recorded := by
        intro note record
        rw [host_performAll undisturbed, note_makeAll record]
      counted := by
        rintro earlier limit later rfl
        have upTo := renderingLeft_performAll undisturbed.of_append
        rw [perform_advanceRendering, advanceRendering_count, upTo]
      inProgress := by
        rw [isRendering_iff, left]
        omega
      finished := lastRendering_of_finished undisturbed
      inOneGo := by
        intro finished same
        rw [render_eq_performAll]
        apply agree_of_finished undisturbed finished
        · exact undisturbed_advanceRendering _ _
        · rw [← render_eq_performAll]
          exact isRendering_render system
        · intro step inside
          rw [same step inside, actionsInForce]
          exact (if_pos inside).symm
      regrouped := by
        intro finished portions
        rw [performAll_eq_advanceRendering portions] at finished ⊢
        exact congrArg Prod.snd
          (advanceRendering_eq_of_finished finished (isRendering_render system))
      ended := by
        intro operation ended later unbegun
        rcases rendering_eq_none_of_ended ended with ⟨none, same⟩
        exact (idle_performAll unbegun none).trans same
      begunAnew := by
        intro old
        refine ⟨host_parkRendering _ _, ?_⟩
        unfold beginRendering parkRendering
        split
        · rfl
        · rfl }

/-! ## A sprig -/

/-- An action that adds its call to a log. -/
def logged (symbol : Symbol) : Action Nat (List (Symbol × List Nat)) :=
  fun arguments log => log ++ [(symbol, arguments)]

/-- A sprig with one leaf on a branch of its own, and a log of everything but
leaves. -/
def sprig : Development Nat (List (Symbol × List Nat)) :=
  fresh [.leaf ⟨⟨"F"⟩, [1]⟩, .branch [.leaf ⟨⟨"leaf"⟩, [2]⟩], .leaf ⟨⟨"F"⟩, [3]⟩] .empty []
    (.ofList [(⟨"F"⟩, logged ⟨"F"⟩), (.opening, logged .opening), (.closing, logged .closing)])
    [] (.scripted [])

/-- Renders the sprig in portions.  On the way a pass is begun, the leaf gets an
action and the end of the branch loses its own. -/
def sprigOperations : List (Operation Nat (List (Symbol × List Nat))) :=
  [.stepRendering, .beginPass, .advancePass 2, .bind ⟨"leaf"⟩ (logged ⟨"leaf"⟩),
    .advanceRendering 2, .unbind .closing, .advanceRendering 7]

theorem sprig_rendersVisits :
    Undisturbed sprigOperations sprig.beginRendering ∧
      RendersVisits sprig sprigOperations (performAll sprigOperations sprig.beginRendering) ∧
      (performAll sprigOperations sprig.beginRendering).host =
        [(⟨"F"⟩, [1]), (.opening, []), (⟨"leaf"⟩, [2]), (⟨"F"⟩, [3])] := by
  have undisturbed : Undisturbed sprigOperations sprig.beginRendering := by
    constructor
    · simp only [sprigOperations, List.forall_mem_cons, startsOver, List.not_mem_nil,
        false_implies, implies_true, and_self]
    · decide
  exact ⟨undisturbed, rendersVisits_of_undisturbed undisturbed, by decide⟩

end Development
end LSystem
