import LSystem.Proofs.Development.Schedule
import LSystem.Proofs.Generation.Tracking

namespace LSystem

/-!
# Stages of a pass

A pass that has been begun goes through stages.  At each of them the system is
the one in which the pass was begun, apart from the rules, the source of chance
and the pass itself; the last stage is the completion of the pass.  Main
statements: whatever the schedule, a system stays in the stages of its pass, and
a step that fails puts everything back except the rules and the source.
-/

variable {V σ : Type}

namespace Development

/-! ## Parked passes -/

theorem parkPass_of_hasNext {pass : Pass V} (running : pass.hasNext = true)
    (system : Development V σ) : system.parkPass pass = { system with pass := some pass } :=
  if_pos running

theorem parkPass_of_finished {pass : Pass V} (finished : pass.hasNext = false)
    (system : Development V σ) : system.parkPass pass = system.commit pass :=
  if_neg (Bool.eq_false_iff.mp finished)

/-- The pass that was in progress before does not matter. -/
theorem parkPass_of_parked (old : Option (Pass V)) (pass : Pass V) (system : Development V σ) :
    ({ system with pass := old }).parkPass pass = system.parkPass pass := by
  unfold parkPass
  split <;> rfl

@[simp]
theorem rules_parkPass (pass : Pass V) (system : Development V σ) :
    (system.parkPass pass).rules = system.rules := by
  unfold parkPass
  split <;> rfl

@[simp]
theorem rules_beginPass (system : Development V σ) : system.beginPass.rules = system.rules :=
  rules_parkPass (.start system.current) system

/-! ## Stages -/

/-- The stages of the pass that a system begins. -/
inductive Stage (system : Development V σ) : Development V σ → Prop where
  | reached {pass : Pass V} {chance : Chance} (rules : RuleTable V)
      (tracks : pass.Tracks system.current) (draws : system.chance.LeadsTo chance) :
      Stage system (({ system with rules, chance }).parkPass pass)

namespace Stage

variable {system before after : Development V σ}

theorem begun (system : Development V σ) : Stage system system.beginPass :=
  .reached system.rules (Pass.tracks_start system.current) (.refl system.chance)

/-- While the pass is in progress nothing has been completed. -/
theorem of_isGenerating (stage : Stage system before) (running : before.isGenerating = true) :
    ∃ pass chance, pass.hasNext = true ∧ pass.Tracks system.current ∧
      system.chance.LeadsTo chance ∧
      before = { system with rules := before.rules, chance, pass := some pass } := by
  cases stage with
  | @reached pass chance rules tracks draws =>
      cases ahead : pass.hasNext with
      | true =>
          rw [parkPass_of_hasNext ahead]
          exact ⟨pass, chance, ahead, tracks, draws, rfl⟩
      | false =>
          rw [parkPass_of_finished ahead] at running
          cases running

/-- When no pass is in progress any more it has been completed. -/
theorem of_idle (stage : Stage system after) (idle : after.isGenerating = false) :
    ∃ pass chance, pass.hasNext = false ∧ pass.Tracks system.current ∧
      system.chance.LeadsTo chance ∧
      after = ({ system with rules := after.rules, chance }).commit pass := by
  cases stage with
  | @reached pass chance rules tracks draws =>
      cases ahead : pass.hasNext with
      | true =>
          rw [parkPass_of_hasNext ahead] at idle
          cases ahead.symm.trans idle
      | false =>
          rw [parkPass_of_finished ahead]
          exact ⟨pass, chance, ahead, tracks, draws, rfl⟩

theorem exists_parked (stage : Stage system before) (running : before.isGenerating = true) :
    ∃ pass, before.pass = some pass := by
  rcases stage.of_isGenerating running with ⟨pass, _, _, _, _, same⟩
  rw [same]
  exact ⟨pass, rfl⟩

theorem isGenerating_of_parked (stage : Stage system before) {pass : Pass V}
    (parked : before.pass = some pass) : before.isGenerating = true := by
  rw [← Bool.not_eq_false]
  intro idle
  rcases stage.of_idle idle with ⟨_, _, _, _, _, same⟩
  rw [same] at parked
  cases parked

/-- A step leads from stage to stage. -/
theorem step (stage : Stage system before) (running : before.isGenerating = true)
    (taken : before.stepPass = (.ok (), after)) :
    Stage system after ∧ after.rules = before.rules := by
  rcases stage.of_isGenerating running with ⟨pass, chance, ahead, tracks, draws, same⟩
  rcases stepPass_eq_ok running taken with ⟨parked, next, later, isParked, step, rfl⟩
  rw [same] at isParked step ⊢
  cases isParked
  have moved : Stage system (({ system with rules := before.rules, chance := later }).parkPass
      next) := .reached before.rules (step.tracks tracks) (draws.trans step.leadsTo)
  rw [← parkPass_of_parked (some pass)] at moved
  exact ⟨moved, rules_parkPass next _⟩

/-- A step that fails leads back to the beginning. -/
theorem failure (stage : Stage system before) (running : before.isGenerating = true)
    {fault : Fault} (failed : before.stepPass = (.error fault, after)) :
    ∃ error chance, fault = .configuration error ∧ system.chance.LeadsTo chance ∧
      after = { system with rules := before.rules, chance, pass := none } := by
  rcases stage.of_isGenerating running with ⟨pass, chance, ahead, tracks, draws, same⟩
  rcases stepPass_eq_error running failed with
    ⟨parked, error, later, isParked, isFault, failure, rfl⟩
  rw [same] at isParked failure ⊢
  cases isParked
  exact ⟨error, later, isFault, draws.trans failure.leadsTo, rfl⟩

/-- Other rules do not change the stage. -/
theorem offered (stage : Stage system before) (running : before.isGenerating = true)
    (rules : List (Rule V)) : Stage system (before.offerRules rules) := by
  rcases stage.of_isGenerating running with ⟨pass, chance, ahead, tracks, draws, same⟩
  rw [offerRules_eq, same]
  have moved : Stage system
      (({ system with rules := before.rules.revise rules, chance }).parkPass pass) :=
    .reached _ tracks draws
  rw [parkPass_of_hasNext ahead] at moved
  exact moved

end Stage

/-! ## Whole schedules -/

theorem drives_stage (system : Development V σ) (calls : List (PassCall V)) :
    Drives (Stage system) (system.beginPass.drive calls) := by
  apply drives_drive
  · exact .begun system
  · intro before after running taken stage
    exact (stage.step running taken).1
  · intro before rules running stage
    exact stage.offered running rules

/-- Whatever the schedule, the system stays in the stages of the pass. -/
theorem stage_drive {system after : Development V σ} {calls : List (PassCall V)}
    {counts : List Nat} (driven : system.beginPass.drive calls = (.ok counts, after)) :
    Stage system after := by
  have kept := drives_stage system calls
  rw [driven] at kept
  exact kept

/-- As long as the pass goes on, nothing has changed but the rules, the source
of chance and the pass. -/
theorem drive_eq_ok_of_isGenerating {system after : Development V σ} {calls : List (PassCall V)}
    {counts : List Nat} (driven : system.beginPass.drive calls = (.ok counts, after))
    (running : after.isGenerating = true) :
    system.chance.LeadsTo after.chance ∧
      after = { system with rules := after.rules, chance := after.chance, pass := after.pass } := by
  rcases (stage_drive driven).of_isGenerating running with ⟨pass, chance, _, _, draws, same⟩
  rw [same]
  exact ⟨draws, rfl⟩

/-- When a schedule has failed, nothing has changed but the rules and the source
of chance, and no pass is in progress. -/
theorem drive_eq_error {system after : Development V σ} {calls : List (PassCall V)}
    {fault : Fault} (failed : system.beginPass.drive calls = (.error fault, after)) :
    (∃ error, fault = .configuration error) ∧ system.chance.LeadsTo after.chance ∧
      after = { system with rules := after.rules, chance := after.chance, pass := none } := by
  have kept := drives_stage system calls
  rw [failed] at kept
  rcases kept with ⟨last, stage, running, failing⟩
  rcases stage.failure running failing with ⟨error, chance, same, draws, rfl⟩
  exact ⟨⟨error, same⟩, draws, rfl⟩

end Development
end LSystem
