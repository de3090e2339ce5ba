import LSystem.Proofs.Development.Atomicity
import LSystem.Proofs.Development.Operation
import LSystem.Proofs.Development.Rendering

namespace LSystem

/-!
# Consistency

A host may call the operations of a system in any order.  Several of them write
the same fields, and any of them can fail, but the fields always agree with each
other: the counters with the current generation, what is in progress with that
generation as well, and the last report with the counters.  So a host that asks
beforehand is never refused, and no walk ever runs past its end.
-/

variable {V σ : Type}

/-- A rendering stands where a walk over a forest gets in as many steps as it has
counted. -/
def Rendering.Tracks (forest : Forest V) (rendering : Rendering V) : Prop :=
  Place.after forest rendering.tally.visited = some rendering.cursor.position

/-- Changing the rules is offering them, whatever the host is told. -/
theorem Operation.perform_setRules (rules : List (Rule V)) (system : Development V σ) :
    ((setRules rules).perform system).2 = system.offerRules rules := by
  rw [perform]
  unfold Development.offerRules
  rcases system.setRules rules with error | after
  · rfl
  · rfl

namespace Development

/-- What holds of a system that has been set up with a start. -/
structure Consistent (start : Forest V) (system : Development V σ) : Prop where
  start_eq : system.start = start
  nonempty : start ≠ []
  moduleCount_eq : system.moduleCount = Forest.size system.current
  pass : ∀ pass, system.pass = some pass → pass.hasNext = true ∧ pass.Tracks system.current
  rendering : ∀ rendering, system.rendering = some rendering →
    rendering.hasNext = true ∧ rendering.Tracks system.current
  lastPass_eq_none_iff : system.lastPass = none ↔ system.generation = 0
  lastPass_agrees : ∀ report, system.lastPass = some report →
    report.generation = system.generation ∧ report.tally.moduleCount = system.moduleCount

variable {start : Forest V} {system : Development V σ}

theorem consistent_fresh (nonempty : start ≠ []) (rules : RuleTable V) (ignore : List Symbol)
    (actions : Actions V σ) (host : σ) (chance : Chance) :
    (fresh start rules ignore actions host chance).Consistent start where
  start_eq := rfl
  nonempty := nonempty
  moduleCount_eq := rfl
  pass _ parked := nomatch parked
  rendering _ parked := nomatch parked
  lastPass_eq_none_iff := by
    constructor
    · intro unreported
      rfl
    · intro first
      rfl
  lastPass_agrees _ reported := nomatch reported

/-- What has been set up is at its start, with rules that have passed the checks. -/
theorem create_eq_ok {rules : List (Rule V)} {ignore : List Symbol} {actions : Actions V σ}
    {host : σ} {chance : Chance} {first : Development V σ}
    (created : create start rules ignore actions host chance = .ok first) :
    start ≠ [] ∧ ∃ table, RuleTable.ofRules rules = .ok table ∧
      first = fresh start table ignore actions host chance := by
  unfold create at created
  split at created
  · cases created
  · next nonempty =>
      rw [List.isEmpty_iff] at nonempty
      rcases compiled : RuleTable.ofRules rules with error | table
      · rw [compiled] at created
        cases created
      · rw [compiled] at created
        cases created
        exact ⟨nonempty, table, rfl, rfl⟩

theorem consistent_create {rules : List (Rule V)} {ignore : List Symbol} {actions : Actions V σ}
    {host : σ} {chance : Chance} {first : Development V σ}
    (created : create start rules ignore actions host chance = .ok first) :
    first.Consistent start := by
  rcases create_eq_ok created with ⟨nonempty, table, -, rfl⟩
  exact consistent_fresh nonempty table ignore actions host chance

namespace Consistent

/-! ## Asking beforehand -/

/-- What is in progress has a step to take. -/
theorem isGenerating_iff (consistent : system.Consistent start) :
    system.isGenerating = true ↔ system.pass.isSome = true := by
  unfold isGenerating
  rcases parked : system.pass with _ | pass
  · exact Iff.rfl
  · exact iff_of_true (consistent.pass pass parked).1 rfl

theorem isRendering_iff (consistent : system.Consistent start) :
    system.isRendering = true ↔ system.rendering.isSome = true := by
  unfold isRendering
  rcases parked : system.rendering with _ | rendering
  · exact Iff.rfl
  · exact iff_of_true (consistent.rendering rendering parked).1 rfl

theorem pass_eq_none (consistent : system.Consistent start) (idle : system.isGenerating = false) :
    system.pass = none := by
  rw [← Option.not_isSome_iff_eq_none, ← consistent.isGenerating_iff, idle]
  exact Bool.false_ne_true

theorem rendering_eq_none (consistent : system.Consistent start)
    (idle : system.isRendering = false) : system.rendering = none := by
  rw [← Option.not_isSome_iff_eq_none, ← consistent.isRendering_iff, idle]
  exact Bool.false_ne_true

theorem stepPass_of_idle (consistent : system.Consistent start)
    (idle : system.isGenerating = false) :
    system.stepPass = (.error (.violation .noPassInProgress), system) := by
  unfold Development.stepPass
  rw [consistent.pass_eq_none idle]

theorem stepRendering_of_idle (consistent : system.Consistent start)
    (idle : system.isRendering = false) :
    system.stepRendering = .error .noRenderInProgress := by
  unfold Development.stepRendering
  rw [consistent.rendering_eq_none idle]

/-! ## Operations that do not generate -/

/-- The fields that belong to the host do not matter. -/
theorem of_host (consistent : system.Consistent start) (rules : RuleTable V)
    (actions : Actions V σ) (host : σ) (chance : Chance) :
    ({ system with rules, actions, host, chance }).Consistent start :=
  { consistent with }

theorem reset (consistent : system.Consistent start) : system.reset.Consistent start := by
  rw [reset_eq_fresh, consistent.start_eq]
  exact consistent_fresh consistent.nonempty _ _ _ _ _

/-! ## Generating -/

theorem of_abandoned (consistent : system.Consistent start) :
    ({ system with pass := none }).Consistent start :=
  { consistent with pass := fun _ parked => nomatch parked }

theorem commit (consistent : system.Consistent start) {pass : Pass V}
    (tracks : pass.Tracks system.current) (finished : pass.hasNext = false) :
    (system.commit pass).Consistent start where
  start_eq := consistent.start_eq
  nonempty := consistent.nonempty
  moduleCount_eq := tracks.moduleCount_eq finished
  pass _ parked := nomatch parked
  rendering _ parked := nomatch parked
  lastPass_eq_none_iff := by
    constructor
    · intro unreported
      cases unreported
    · intro first
      cases first
  lastPass_agrees _ reported := by
    cases reported
    exact ⟨rfl, rfl⟩

theorem parkPass (consistent : system.Consistent start) {pass : Pass V}
    (tracks : pass.Tracks system.current) : (system.parkPass pass).Consistent start := by
  cases ahead : pass.hasNext with
  | true =>
      rw [parkPass_of_hasNext ahead]
      refine { consistent with pass := fun parked isParked => ?_ }
      cases isParked
      exact ⟨ahead, tracks⟩
  | false =>
      rw [parkPass_of_finished ahead]
      exact consistent.commit tracks ahead

theorem beginPass (consistent : system.Consistent start) : system.beginPass.Consistent start :=
  consistent.parkPass (Pass.tracks_start system.current)

theorem stepPass (consistent : system.Consistent start) (running : system.isGenerating = true) :
    system.stepPass.2.Consistent start := by
  rcases stepped : system.stepPass with ⟨fault | ⟨⟩, after⟩
  · rcases stepPass_eq_error running stepped with ⟨pass, error, chance, _, _, _, rfl⟩
    exact (consistent.of_host system.rules system.actions system.host chance).of_abandoned
  · rcases stepPass_eq_ok running stepped with ⟨pass, next, chance, parked, step, rfl⟩
    have later := consistent.of_host system.rules system.actions system.host chance
    exact later.parkPass (step.tracks (consistent.pass pass parked).2)

theorem advancePass (consistent : system.Consistent start) (limit : Nat) :
    (system.advancePass limit).2.Consistent start := by
  apply advancePass_keeps consistent
  intro before running holds
  exact holds.stepPass running

theorem generate (consistent : system.Consistent start) : system.generate.2.Consistent start :=
  consistent.beginPass.advancePass _

theorem generateMany (consistent : system.Consistent start) (passes : Nat) :
    (system.generateMany passes).2.Consistent start := by
  induction passes generalizing system with
  | zero => exact consistent
  | succ passes inductionHypothesis =>
      have onward := consistent.generate
      rw [Development.generateMany]
      rcases generated : system.generate with ⟨fault | ⟨⟩, next⟩
      · rw [generated] at onward
        exact onward
      · rw [generated] at onward
        exact inductionHypothesis onward

/-! ## Rendering -/

theorem parkRendering (consistent : system.Consistent start) {rendering : Rendering V}
    (tracks : rendering.Tracks system.current) :
    (system.parkRendering rendering).Consistent start := by
  unfold Development.parkRendering
  split
  · next ahead =>
      refine { consistent with rendering := fun parked isParked => ?_ }
      cases isParked
      exact ⟨ahead, tracks⟩
  · exact { consistent with rendering := fun _ parked => nomatch parked }

theorem beginRendering (consistent : system.Consistent start) :
    system.beginRendering.Consistent start :=
  have atRoot : (Rendering.start system.current).Tracks system.current := rfl
  consistent.parkRendering atRoot

theorem stepRendering (consistent : system.Consistent start) {after : Development V σ}
    (running : system.isRendering = true) (taken : system.stepRendering = .ok after) :
    after.Consistent start := by
  rcases stepRendering_of_isRendering running with ⟨rendering, next, host, parked, step, stepped⟩
  cases taken.symm.trans stepped
  have later := consistent.of_host system.rules system.actions host system.chance
  refine later.parkRendering ?_
  rcases step.moved with ⟨visit, moved⟩
  unfold Rendering.Tracks
  rw [step.visited_eq]
  exact Place.after_succ (consistent.rendering rendering parked).2 moved

theorem advanceRendering (consistent : system.Consistent start) (limit : Nat) :
    (system.advanceRendering limit).2.Consistent start := by
  apply advanceRendering_keeps consistent
  intro before after running taken holds
  exact holds.stepRendering running taken

theorem render (consistent : system.Consistent start) : system.render.Consistent start :=
  consistent.beginRendering.advanceRendering _

/-! ## All operations -/

theorem perform (consistent : system.Consistent start) (operation : Operation V σ) :
    (operation.perform system).2.Consistent start := by
  cases operation with
  | reset => exact consistent.reset
  | setRules rules =>
      rw [Operation.perform_setRules, offerRules_eq]
      exact consistent.of_host _ system.actions system.host system.chance
  | bind => exact consistent.of_host system.rules _ system.host system.chance
  | unbind => exact consistent.of_host system.rules _ system.host system.chance
  | generate => exact consistent.generate
  | generateMany passes => exact consistent.generateMany passes
  | beginPass => exact consistent.beginPass
  | stepPass =>
      rw [Operation.perform]
      cases running : system.isGenerating with
      | true => exact consistent.stepPass running
      | false =>
          rw [consistent.stepPass_of_idle running]
          exact consistent
  | advancePass limit => exact consistent.advancePass limit
  | render =>
      rw [Operation.perform_render]
      exact consistent.render
  | beginRendering => exact consistent.beginRendering
  | stepRendering =>
      rw [Operation.perform]
      cases running : system.isRendering with
      | true =>
          rcases exists_stepRendering running with ⟨after, taken⟩
          rw [taken]
          exact consistent.stepRendering running taken
      | false =>
          rw [consistent.stepRendering_of_idle running]
          exact consistent
  | advanceRendering limit =>
      rw [Operation.perform_advanceRendering]
      exact consistent.advanceRendering limit

theorem performAll (consistent : system.Consistent start) (operations : List (Operation V σ)) :
    (Operation.performAll operations system).Consistent start :=
  Operation.performAll_keeps (fun operation _ holds => holds.perform operation) operations consistent

end Consistent

/-! ## Faults -/

theorem stepPass_fault {after : Development V σ} {fault : Fault}
    (running : system.isGenerating = true) (failed : system.stepPass = (.error fault, after)) :
    ∃ error, fault = .configuration error := by
  rcases stepPass_eq_error running failed with ⟨_, error, _, _, isFault, _, _⟩
  exact ⟨error, isFault⟩

theorem advancePass_fault {limit : Nat} {after : Development V σ} {fault : Fault}
    (failed : system.advancePass limit = (.error fault, after)) :
    ∃ error, fault = .configuration error := by
  have run : Runs (fun _ _ => True) limit (system.advancePass limit) := by
    apply runs_advancePass
    · trivial
    · intros
      trivial
  rw [failed] at run
  rcases run with ⟨_, last, _, _, running, stopped⟩
  exact stepPass_fault running stopped

theorem generateMany_fault {passes : Nat} {after : Development V σ} {fault : Fault}
    (failed : system.generateMany passes = (.error fault, after)) :
    ∃ error, fault = .configuration error := by
  rcases generateMany_eq_error failed with ⟨_, _, _, _, _, stopped⟩
  exact (generate_eq_error stopped).1

/-- Only a single step can be refused, and only if the host could have known. -/
theorem Consistent.violation_of_perform (consistent : system.Consistent start)
    {operation : Operation V σ} {cause : ContractViolation} {after : Development V σ}
    (refused : operation.perform system = (.error (.violation cause), after)) :
    after = system ∧
      (operation = .stepPass ∧ cause = .noPassInProgress ∧ system.isGenerating = false ∨
        operation = .stepRendering ∧ cause = .noRenderInProgress ∧
          system.isRendering = false) := by
  cases operation with
  | setRules rules =>
      rw [Operation.perform] at refused
      rcases changed : system.setRules rules with error | next
      · rw [changed] at refused
        cases refused
      · rw [changed] at refused
        cases refused
  | generate =>
      rcases (generate_eq_error (eq_error_of_map refused)).1 with ⟨error, isFault⟩
      cases isFault
  | generateMany passes =>
      rcases generateMany_fault (eq_error_of_map refused) with ⟨error, isFault⟩
      cases isFault
  | stepPass =>
      have stopped := eq_error_of_map refused
      cases running : system.isGenerating with
      | true =>
          rcases stepPass_fault running stopped with ⟨error, isFault⟩
          cases isFault
      | false =>
          cases stopped.symm.trans (consistent.stepPass_of_idle running)
          exact ⟨rfl, .inl ⟨rfl, rfl, rfl⟩⟩
  | advancePass limit =>
      rcases advancePass_fault (eq_error_of_map refused) with ⟨error, isFault⟩
      cases isFault
  | stepRendering =>
      rw [Operation.perform] at refused
      cases running : system.isRendering with
      | true =>
          rcases exists_stepRendering running with ⟨after, taken⟩
          rw [taken] at refused
          cases refused
      | false =>
          rw [consistent.stepRendering_of_idle running] at refused
          cases refused
          exact ⟨rfl, .inr ⟨rfl, rfl, rfl⟩⟩
  | reset => cases refused
  | bind => cases refused
  | unbind => cases refused
  | beginPass => cases refused
  | beginRendering => cases refused
  -- Whatever is taken in one go asks before every step, so there is nothing to hand on.
  | render =>
      rw [Operation.perform_render] at refused
      cases refused
  | advanceRendering limit =>
      rw [Operation.perform_advanceRendering] at refused
      cases refused

/-! ## Reachable systems -/

/-- What a host can rely on when it asks beforehand what is in progress. -/
structure HonoursContract (system : Development V σ) : Prop where
  isGenerating_iff : system.isGenerating = true ↔ system.pass.isSome = true
  isRendering_iff : system.isRendering = true ↔ system.rendering.isSome = true
  /-- Without a pass in progress a step is refused, and changes nothing. -/
  stepPass_of_idle : system.isGenerating = false →
    system.stepPass = (.error (.violation .noPassInProgress), system) ∧
      ContractViolation.message .noPassInProgress = "generate_next called with no pass in progress"
  /-- In a pass a step is never refused. -/
  stepPass_of_running : system.isGenerating = true →
    ∀ cause, system.stepPass.1 ≠ .error (.violation cause)
  stepRendering_of_idle : system.isRendering = false →
    system.stepRendering = .error .noRenderInProgress ∧
      ContractViolation.message .noRenderInProgress =
        "render_next called with no render in progress"
  stepRendering_of_running : system.isRendering = true →
    ∃ after, system.stepRendering = .ok after
  /-- No other operation is ever refused, and no walk runs past its end. -/
  refused : ∀ (operation : Operation V σ) cause after,
    operation.perform system = (.error (.violation cause), after) →
    after = system ∧
      (operation = .stepPass ∧ cause = .noPassInProgress ∧ system.isGenerating = false ∨
        operation = .stepRendering ∧ cause = .noRenderInProgress ∧ system.isRendering = false)

theorem Consistent.honoursContract (consistent : system.Consistent start) :
    system.HonoursContract where
  isGenerating_iff := consistent.isGenerating_iff
  isRendering_iff := consistent.isRendering_iff
  stepPass_of_idle idle := ⟨consistent.stepPass_of_idle idle, rfl⟩
  stepPass_of_running running cause refused := by
    rcases stepPass_fault running (Prod.ext refused rfl) with ⟨error, isFault⟩
    cases isFault
  stepRendering_of_idle idle := ⟨consistent.stepRendering_of_idle idle, rfl⟩
  stepRendering_of_running := exists_stepRendering
  refused _ _ _ refused := consistent.violation_of_perform refused

/-- However a system has been used since it was set up, it is consistent and
honours its contract. -/
theorem consistent_performAll {start : Forest V} {rules : List (Rule V)} {ignore : List Symbol}
    {actions : Actions V σ} {host : σ} {chance : Chance} {first : Development V σ}
    (created : create start rules ignore actions host chance = .ok first)
    (operations : List (Operation V σ)) :
    (Operation.performAll operations first).Consistent start ∧
      (Operation.performAll operations first).HonoursContract := by
  have consistent := (consistent_create created).performAll operations
  constructor
  · exact consistent
  · exact consistent.honoursContract

/-- A weed with a pass and a rendering in progress when it is put back to its
start, and a step that is refused after that. -/
theorem consistent_performAll_weed :
    ∃ first : Development Float Unit,
      create Catalog.weed.start Catalog.weed.rules Catalog.weed.ignore .empty ()
          (.scripted [0.3, 0.6, 0.1]) = .ok first ∧
        (Operation.performAll
          [.generate, .beginRendering, .advanceRendering 2, .beginPass, .stepPass, .stepPass,
            .reset, .stepRendering, .generateMany 3, .stepPass] first).Consistent
          Catalog.weed.start ∧
        (Operation.performAll
          [.generate, .beginRendering, .advanceRendering 2, .beginPass, .stepPass, .stepPass,
            .reset, .stepRendering, .generateMany 3, .stepPass] first).HonoursContract := by
  have accepted : (create Catalog.weed.start Catalog.weed.rules Catalog.weed.ignore .empty ()
      (.scripted [0.3, 0.6, 0.1]) : Except _ (Development Float Unit)).isOk = true := by decide
  rcases created : (create Catalog.weed.start Catalog.weed.rules Catalog.weed.ignore .empty ()
      (.scripted [0.3, 0.6, 0.1]) : Except _ (Development Float Unit)) with error | first
  · rw [created] at accepted
    cases accepted
  · exact ⟨first, rfl, consistent_performAll created _⟩

end Development
end LSystem
