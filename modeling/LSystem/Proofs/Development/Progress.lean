import LSystem.Development.Generate
import LSystem.Proofs.Generation.Step

namespace LSystem

/-!
# Progress of a pass

A step of the pass in progress leaves one step less to be taken.  Taking several
steps in one go is taking them one after another, so it does not matter how they
are grouped: what counts is how many there are, up to the end of the pass.  Main
statements: a chunk takes as many steps as it may and as there are, two chunks
in a row are one chunk of both sizes, and enough steps finish the pass.
-/

namespace Development

variable {V σ : Type}

/-- The number of steps that the pass in progress still has to take. -/
def stepsLeft (system : Development V σ) : Nat :=
  match system.pass with
  | none => 0
  | some pass => pass.cursor.position.ahead.length

theorem isGenerating_iff {system : Development V σ} :
    system.isGenerating = true ↔ 0 < system.stepsLeft := by
  unfold isGenerating stepsLeft
  cases system.pass with
  | none => simp
  | some pass => exact Pass.hasNext_iff

theorem isGenerating_eq_false_iff {system : Development V σ} :
    system.isGenerating = false ↔ system.stepsLeft = 0 := by
  rw [← Bool.not_eq_true, isGenerating_iff, Nat.not_lt, Nat.le_zero]

/-- A parked pass has a step to take, and a pass without one is not parked. -/
@[simp]
theorem stepsLeft_parkPass (pass : Pass V) (system : Development V σ) :
    (system.parkPass pass).stepsLeft = pass.cursor.position.ahead.length := by
  unfold parkPass
  split
  · rfl
  · next finished =>
      rw [Pass.hasNext_iff] at finished
      exact (Nat.eq_zero_of_not_pos finished).symm

@[simp]
theorem stepsLeft_beginPass (system : Development V σ) :
    system.beginPass.stepsLeft = Forest.size system.current := by
  simp [beginPass]

/-! ## One step -/

/-- What a step of the pass in progress comes to. -/
def Stepped (system : Development V σ) : Except Fault Unit × Development V σ → Prop
  | (.ok (), after) =>
      ∃ pass next chance, system.pass = some pass ∧
        Pass.Step system.rules system.ignore pass system.chance next chance ∧
        after = { system with chance }.parkPass next
  | (.error fault, after) =>
      ∃ pass error chance, system.pass = some pass ∧ fault = .configuration error ∧
        Pass.Failure system.rules system.ignore pass system.chance error chance ∧
        after = { system with chance, pass := none }

theorem stepped_stepPass {system : Development V σ} (running : system.isGenerating = true) :
    Stepped system system.stepPass := by
  unfold isGenerating at running
  unfold stepPass
  rcases parked : system.pass with _ | pass
  · rw [parked] at running
    cases running
  · rw [parked] at running
    have stepped := Pass.stepped_step system.rules system.ignore system.chance running
    dsimp only
    rcases taken : pass.step system.rules system.ignore system.chance with ⟨fault | next, chance⟩
    · rw [taken] at stepped
      rcases stepped with ⟨error, same, failure⟩
      exact ⟨pass, error, chance, parked, same, failure, rfl⟩
    · rw [taken] at stepped
      exact ⟨pass, next, chance, parked, stepped, rfl⟩

theorem stepPass_eq_ok {system after : Development V σ} (running : system.isGenerating = true)
    (taken : system.stepPass = (.ok (), after)) :
    ∃ pass next chance, system.pass = some pass ∧
      Pass.Step system.rules system.ignore pass system.chance next chance ∧
      after = { system with chance }.parkPass next := by
  have stepped := stepped_stepPass running
  rw [taken] at stepped
  exact stepped

theorem stepPass_eq_error {system after : Development V σ} {fault : Fault}
    (running : system.isGenerating = true) (failed : system.stepPass = (.error fault, after)) :
    ∃ pass error chance, system.pass = some pass ∧ fault = .configuration error ∧
      Pass.Failure system.rules system.ignore pass system.chance error chance ∧
      after = { system with chance, pass := none } := by
  have stepped := stepped_stepPass running
  rw [failed] at stepped
  exact stepped

/-- Without a pass in progress a step is refused and moves nothing. -/
theorem stepPass_of_not_isGenerating {system : Development V σ}
    (idle : system.isGenerating = false) :
    ∃ violation pass, system.stepPass = (.error (.violation violation), { system with pass }) := by
  unfold isGenerating at idle
  unfold stepPass
  rcases parked : system.pass with _ | pass
  · exact ⟨.noPassInProgress, system.pass, rfl⟩
  · rw [parked] at idle
    have finished : pass.cursor.hasNext = false := idle
    rw [Cursor.hasNext_eq_isSome_step?, Option.isSome_eq_false_iff, Option.isNone_iff_eq_none]
      at finished
    refine ⟨.exhaustedWalk, none, ?_⟩
    dsimp only
    unfold Pass.step Cursor.next
    rw [finished]

theorem stepsLeft_of_stepPass {system after : Development V σ}
    (running : system.isGenerating = true) (taken : system.stepPass = (.ok (), after)) :
    after.stepsLeft + 1 = system.stepsLeft := by
  rcases stepPass_eq_ok running taken with ⟨pass, next, chance, parked, step, rfl⟩
  rcases step.walks with ⟨⟨visit, moved⟩, -⟩
  rw [stepsLeft_parkPass]
  unfold stepsLeft
  rw [parked]
  dsimp only
  rw [moved.ahead, List.length_cons]

theorem stepsLeft_of_stepPass_error {system after : Development V σ} {fault : Fault}
    (running : system.isGenerating = true) (failed : system.stepPass = (.error fault, after)) :
    after.stepsLeft = 0 := by
  rcases stepPass_eq_error running failed with ⟨pass, error, chance, parked, same, failure, rfl⟩
  rfl

/-! ## Several steps -/

/-- Without a pass in progress no step is taken. -/
theorem advancePassFrom_of_idle {system : Development V σ} (idle : system.isGenerating = false)
    (taken limit : Nat) : advancePassFrom taken limit system = (.ok taken, system) := by
  cases limit with
  | zero => rfl
  | succ limit =>
      unfold advancePassFrom
      rw [idle]
      rfl

theorem advancePassFrom_succ {system : Development V σ} (running : system.isGenerating = true)
    (taken limit : Nat) :
    advancePassFrom taken (limit + 1) system =
      match system.stepPass with
      | (.error fault, after) => (.error fault, after)
      | (.ok (), after) => advancePassFrom (taken + 1) limit after := by
  rw [advancePassFrom]
  refine (if_pos running).trans ?_
  rcases system.stepPass with ⟨fault | ⟨⟩, after⟩ <;> rfl

theorem advancePassFrom_add (taken first second : Nat) (system : Development V σ) :
    advancePassFrom taken (first + second) system =
      match advancePassFrom taken first system with
      | (.error fault, after) => (.error fault, after)
      | (.ok taken, after) => advancePassFrom taken second after := by
  induction first generalizing taken system with
  | zero => rw [Nat.zero_add]; rfl
  | succ first inductionHypothesis =>
      rw [Nat.succ_add]
      cases running : system.isGenerating with
      | true =>
          rw [advancePassFrom_succ running, advancePassFrom_succ running]
          rcases system.stepPass with ⟨fault | ⟨⟩, after⟩
          · rfl
          · exact inductionHypothesis (taken + 1) after
      | false =>
          rw [advancePassFrom_of_idle running, advancePassFrom_of_idle running]
          exact (advancePassFrom_of_idle running taken second).symm

/-- Steps taken before only add to the count. -/
theorem advancePassFrom_eq_advancePass (taken limit : Nat) (system : Development V σ) :
    advancePassFrom taken limit system =
      ((system.advancePass limit).1.map (taken + ·), (system.advancePass limit).2) := by
  have shifted (base taken : Nat) :
      advancePassFrom (base + taken) limit system =
        ((advancePassFrom taken limit system).1.map (base + ·),
          (advancePassFrom taken limit system).2) := by
    induction limit generalizing taken system with
    | zero => rfl
    | succ limit inductionHypothesis =>
        unfold advancePassFrom
        split
        · rcases system.stepPass with ⟨fault | ⟨⟩, after⟩
          · rfl
          · exact inductionHypothesis after (taken + 1)
        · rfl
  exact shifted taken 0

/-- Two chunks in a row are one chunk of both sizes. -/
theorem advancePass_add (first second : Nat) (system : Development V σ) :
    system.advancePass (first + second) =
      match system.advancePass first with
      | (.error fault, after) => (.error fault, after)
      | (.ok taken, after) =>
          ((after.advancePass second).1.map (taken + ·), (after.advancePass second).2) := by
  unfold advancePass
  rw [advancePassFrom_add]
  rcases advancePassFrom 0 first system with ⟨fault | taken, after⟩
  · rfl
  · exact advancePassFrom_eq_advancePass taken second after

theorem advancePassFrom_eq_ok {base limit taken : Nat} {system after : Development V σ}
    (advanced : advancePassFrom base limit system = (.ok taken, after)) :
    taken = base + min limit system.stepsLeft ∧ after.stepsLeft = system.stepsLeft - limit := by
  induction limit generalizing base system with
  | zero =>
      cases advanced
      simp
  | succ limit inductionHypothesis =>
      cases running : system.isGenerating with
      | true =>
          rw [advancePassFrom_succ running] at advanced
          rcases stepped : system.stepPass with ⟨fault | ⟨⟩, next⟩
          · rw [stepped] at advanced
            cases advanced
          · rw [stepped] at advanced
            have fewer := stepsLeft_of_stepPass running stepped
            have rest := inductionHypothesis advanced
            omega
      | false =>
          rw [advancePassFrom_of_idle running] at advanced
          cases advanced
          rw [isGenerating_eq_false_iff] at running
          omega

/-- A chunk takes as many steps as it may and as there are. -/
theorem advancePass_eq_ok {limit taken : Nat} {system after : Development V σ}
    (advanced : system.advancePass limit = (.ok taken, after)) :
    taken = min limit system.stepsLeft ∧ after.stepsLeft = system.stepsLeft - limit := by
  have counted := advancePassFrom_eq_ok advanced
  rwa [Nat.zero_add] at counted

theorem stepsLeft_of_advancePassFrom_error {base limit : Nat} {system after : Development V σ}
    {fault : Fault} (failed : advancePassFrom base limit system = (.error fault, after)) :
    after.stepsLeft = 0 := by
  induction limit generalizing base system with
  | zero => cases failed
  | succ limit inductionHypothesis =>
      cases running : system.isGenerating with
      | true =>
          rw [advancePassFrom_succ running] at failed
          rcases stepped : system.stepPass with ⟨error | ⟨⟩, next⟩
          · rw [stepped] at failed
            cases failed
            exact stepsLeft_of_stepPass_error running stepped
          · rw [stepped] at failed
            exact inductionHypothesis failed
      | false =>
          rw [advancePassFrom_of_idle running] at failed
          cases failed

/-! ## Invariants of a run -/

/-- What becomes of an invariant in a run of steps.  It holds at the end of the
run, or else up to the step that fails. -/
def Runs (invariant : Nat → Development V σ → Prop) (limit : Nat) :
    Except Fault Nat × Development V σ → Prop
  | (.ok taken, after) => invariant taken after
  | (.error fault, after) =>
      ∃ count last, count < limit ∧ invariant count last ∧ last.isGenerating = true ∧
        last.stepPass = (.error fault, after)

/-- What each of the steps keeps, the run keeps. -/
theorem runs_advancePass {motive : Nat → Development V σ → Prop} (limit : Nat)
    {system : Development V σ} (first : motive 0 system)
    (kept : ∀ count before after, count < limit → before.isGenerating = true →
      before.stepPass = (.ok (), after) → motive count before → motive (count + 1) after) :
    Runs motive limit (system.advancePass limit) := by
  have run (base steps : Nat) (system : Development V σ) (enough : base + steps = limit)
      (holds : motive base system) : Runs motive limit (advancePassFrom base steps system) := by
    induction steps generalizing base system with
    | zero => exact holds
    | succ steps inductionHypothesis =>
        cases running : system.isGenerating with
        | true =>
            have within : base < limit := by omega
            rw [advancePassFrom_succ running]
            rcases stepped : system.stepPass with ⟨fault | ⟨⟩, after⟩
            · exact ⟨base, system, within, holds, running, stepped⟩
            · apply inductionHypothesis (base + 1) after
              · omega
              · exact kept base system after within running stepped holds
        | false =>
            rw [advancePassFrom_of_idle running]
            exact holds
  exact run 0 limit system (Nat.zero_add limit) first

/-- What each step keeps even if it fails, the run keeps in any case. -/
theorem advancePass_keeps {motive : Development V σ → Prop} {system : Development V σ}
    (first : motive system)
    (stepped : ∀ before, before.isGenerating = true → motive before → motive before.stepPass.2)
    (limit : Nat) : motive (system.advancePass limit).2 := by
  have run : Runs (fun _ => motive) limit (system.advancePass limit) := by
    apply runs_advancePass limit first
    intro count before after within running taken holds
    have kept := stepped before running holds
    rw [taken] at kept
    exact kept
  rcases advanced : system.advancePass limit with ⟨fault | taken, after⟩
  · rw [advanced] at run
    rcases run with ⟨_, last, _, holds, running, failed⟩
    have kept := stepped last running holds
    rw [failed] at kept
    exact kept
  · rw [advanced] at run
    exact run

/-! ## Whole passes -/

/-- As many steps as are left finish the pass. -/
theorem advancePass_finishes {limit : Nat} {system : Development V σ}
    (enough : system.stepsLeft ≤ limit) : (system.advancePass limit).2.isGenerating = false := by
  rw [isGenerating_eq_false_iff]
  rcases advanced : system.advancePass limit with ⟨fault | taken, after⟩
  · exact stepsLeft_of_advancePassFrom_error advanced
  · have left := (advancePass_eq_ok advanced).2
    dsimp only
    omega

/-- Once the pass is finished further steps change nothing. -/
theorem advancePass_of_le {first second : Nat} {system : Development V σ}
    (finished : (system.advancePass first).2.isGenerating = false) (more : first ≤ second) :
    system.advancePass second = system.advancePass first := by
  rcases Nat.exists_eq_add_of_le more with ⟨extra, rfl⟩
  rw [advancePass_add]
  rcases advanced : system.advancePass first with ⟨fault | taken, after⟩
  · rfl
  · rw [advanced] at finished
    dsimp only
    rw [advancePass, advancePassFrom_of_idle finished]
    rfl

/-- All ways to finish a pass come to the same. -/
theorem advancePass_eq_of_finished {first second : Nat} {system : Development V σ}
    (firstFinished : (system.advancePass first).2.isGenerating = false)
    (secondFinished : (system.advancePass second).2.isGenerating = false) :
    system.advancePass first = system.advancePass second := by
  rcases Nat.le_total first second with more | more
  · exact (advancePass_of_le firstFinished more).symm
  · exact advancePass_of_le secondFinished more

theorem generate_eq (system : Development V σ) :
    system.generate =
      ((system.beginPass.advancePass (Forest.size system.current)).1.map fun _ => (),
        (system.beginPass.advancePass (Forest.size system.current)).2) := rfl

/-- What each pass keeps even if it fails, several passes keep in any case. -/
theorem generateMany_keeps {motive : Development V σ → Prop} {system : Development V σ}
    (first : motive system) (generated : ∀ before, motive before → motive before.generate.2)
    (passes : Nat) : motive (system.generateMany passes).2 := by
  induction passes generalizing system with
  | zero => exact first
  | succ passes inductionHypothesis =>
      have onward := generated system first
      rw [generateMany]
      rcases made : system.generate with ⟨fault | ⟨⟩, after⟩
      · rw [made] at onward
        exact onward
      · rw [made] at onward
        exact inductionHypothesis onward

/-- A whole pass leaves none in progress, whether it completes or fails. -/
theorem isGenerating_generate (system : Development V σ) :
    system.generate.2.isGenerating = false := by
  rw [generate_eq]
  exact advancePass_finishes (Nat.le_of_eq system.stepsLeft_beginPass)

end Development
end LSystem
