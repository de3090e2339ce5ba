import LSystem.Demo.Catalog
import LSystem.Proofs.Development.Progress
import Mathlib.Algebra.GroupWithZero.Nat

namespace LSystem

/-!
# Schedules

Between the beginning of a pass and its end the host decides how many steps to
take at a time, and it may offer other rules at any point.  A schedule lists
these decisions.  It is followed for as long as the pass is in progress; what is
left of it then is not looked at.

Main statement: without offers, a schedule comes to the same as one chunk that
is as long as all of its portions together, whatever the cuts between them.
-/

/-- A part of a pass that is taken in one call. -/
inductive Portion where
  | step
  | chunk (limit : Nat)

/-- What a host can call while a pass is in progress. -/
inductive PassCall (V : Type) where
  | take (portion : Portion)
  | offer (rules : List (Rule V))

variable {V σ : Type}

/-! ## Calls -/

namespace Portion

/-- The most steps that the portion can have. -/
def limit : Portion → Nat
  | step => 1
  | chunk limit => limit

/-- Takes the portion and says how many steps it had. -/
def perform (system : Development V σ) : Portion → Except Fault Nat × Development V σ
  | step => (system.stepPass.1.map fun _ => 1, system.stepPass.2)
  | chunk limit => system.advancePass limit

/-- In a pass a single step is a chunk of one. -/
theorem perform_eq_advancePass {system : Development V σ} (running : system.isGenerating = true)
    (portion : Portion) : portion.perform system = system.advancePass portion.limit := by
  cases portion with
  | step =>
      unfold perform limit Development.advancePass
      rw [Development.advancePassFrom_succ running]
      rcases system.stepPass with ⟨fault | ⟨⟩, after⟩ <;> rfl
  | chunk limit => rfl

end Portion

/-- The table after rules have been offered.  Faulty ones are refused. -/
def RuleTable.revise (rules : List (Rule V)) (table : RuleTable V) : RuleTable V :=
  match ofRules rules with
  | .ok revised => revised
  | .error _ => table

namespace Development

/-- Offers rules, without minding whether they are accepted. -/
def offerRules (rules : List (Rule V)) (system : Development V σ) : Development V σ :=
  match system.setRules rules with
  | .ok revised => revised
  | .error _ => system

theorem offerRules_eq (rules : List (Rule V)) (system : Development V σ) :
    system.offerRules rules = { system with rules := system.rules.revise rules } := by
  unfold offerRules setRules RuleTable.revise
  rcases RuleTable.ofRules rules <;> rfl

theorem offerRules_of_setRules_error {rules : List (Rule V)} {system : Development V σ}
    {error : ConfigurationError} (refused : system.setRules rules = .error error) :
    system.offerRules rules = system := by
  unfold offerRules
  rw [refused]

/-- A weed that a host without any state grows, with the draws listed. -/
def weed (script : List Float) : Development Float Unit :=
  (fresh Catalog.weed.start .empty Catalog.weed.ignore .empty () (.scripted script)).offerRules
    Catalog.weed.rules

/-! ## Following a schedule -/

/-- Follows a schedule while a pass is in progress, up to the first error, and
says how many steps each portion has had. -/
def drive : List (PassCall V) → Development V σ → Except Fault (List Nat) × Development V σ
  | [], system => (.ok [], system)
  | call :: rest, system =>
      if system.isGenerating then
        match call with
        | .offer rules => drive rest (system.offerRules rules)
        | .take portion =>
            match portion.perform system with
            | (.error fault, after) => (.error fault, after)
            | (.ok taken, after) => ((drive rest after).1.map (taken :: ·), (drive rest after).2)
      else (.ok [], system)

theorem drive_of_idle {system : Development V σ} (idle : system.isGenerating = false)
    (calls : List (PassCall V)) : system.drive calls = (.ok [], system) := by
  cases calls with
  | nil => rfl
  | cons call rest =>
      unfold drive
      rw [idle]
      rfl

theorem drive_offer {system : Development V σ} (running : system.isGenerating = true)
    (rules : List (Rule V)) (rest : List (PassCall V)) :
    system.drive (.offer rules :: rest) = (system.offerRules rules).drive rest := by
  rw [drive, if_pos running]

theorem drive_take {system : Development V σ} (running : system.isGenerating = true)
    (portion : Portion) (rest : List (PassCall V)) :
    system.drive (.take portion :: rest) =
      match system.advancePass portion.limit with
      | (.error fault, after) => (.error fault, after)
      | (.ok taken, after) => ((after.drive rest).1.map (taken :: ·), (after.drive rest).2) := by
  rw [drive, if_pos running, portion.perform_eq_advancePass running]

/-- What holds of a system after a call that may fail. -/
def Settles {α : Type} (succeeded : Development V σ → Prop)
    (failed : Fault → Development V σ → Prop) : Except Fault α × Development V σ → Prop
  | (.ok _, after) => succeeded after
  | (.error fault, after) => failed fault after

/-- What a call answers does not matter. -/
theorem Settles.map {α β : Type} {succeeded : Development V σ → Prop}
    {failed : Fault → Development V σ → Prop} {result : Except Fault α × Development V σ}
    (settles : Settles succeeded failed result) (answer : α → β) :
    Settles succeeded failed (result.1.map answer, result.2) := by
  rcases result with ⟨fault | value, after⟩
  · exact settles
  · exact settles

/-- Leaving an answer out does not hide a fault. -/
theorem eq_error_of_map {α β : Type} {answer : α → β}
    {result : Except Fault α × Development V σ} {fault : Fault} {after : Development V σ}
    (failed : (result.1.map answer, result.2) = (.error fault, after)) :
    result = (.error fault, after) := by
  rcases result with ⟨error | value, final⟩
  · cases failed
    rfl
  · cases failed

/-- What becomes of an invariant along a schedule.  It holds when the schedule
has been followed, or else up to the step that fails. -/
def Drives (invariant : Development V σ → Prop) :
    Except Fault (List Nat) × Development V σ → Prop :=
  Settles invariant fun fault after =>
    ∃ last, invariant last ∧ last.isGenerating = true ∧ last.stepPass = (.error fault, after)

/-- What steps and offers keep, a schedule keeps. -/
theorem drives_drive {motive : Development V σ → Prop} {system : Development V σ}
    (first : motive system)
    (stepped : ∀ before after, before.isGenerating = true → before.stepPass = (.ok (), after) →
      motive before → motive after)
    (offered : ∀ before rules, before.isGenerating = true → motive before →
      motive (before.offerRules rules))
    (calls : List (PassCall V)) : Drives motive (system.drive calls) := by
  induction calls generalizing system with
  | nil => exact first
  | cons call rest inductionHypothesis =>
      cases running : system.isGenerating with
      | true =>
          cases call with
          | offer rules =>
              rw [drive_offer running]
              exact inductionHypothesis (offered system rules running first)
          | take portion =>
              have run : Runs (fun _ => motive) portion.limit
                  (system.advancePass portion.limit) := by
                apply runs_advancePass portion.limit first
                intro count before after within
                exact stepped before after
              rw [drive_take running]
              rcases advanced : system.advancePass portion.limit with ⟨fault | taken, after⟩
              · rw [advanced] at run
                rcases run with ⟨_, last, _, failing⟩
                exact ⟨last, failing⟩
              · rw [advanced] at run
                exact (inductionHypothesis run).map _
      | false =>
          rw [drive_of_idle running]
          exact first

/-! ## Schedules without offers -/

/-- The steps that portions may have together. -/
def totalLimit (portions : List Portion) : Nat := (portions.map (·.limit)).sum

@[simp]
theorem totalLimit_cons (portion : Portion) (rest : List Portion) :
    totalLimit (portion :: rest) = portion.limit + totalLimit rest := by
  simp [totalLimit]

/-- How many steps each portion has when so many are left. -/
def portionCounts : List Portion → Nat → List Nat
  | [], _ => []
  | _ :: _, 0 => []
  | portion :: rest, left + 1 =>
      min portion.limit (left + 1) :: portionCounts rest (left + 1 - portion.limit)

/-- Portions one after another are one chunk of all their steps. -/
theorem drive_portions (portions : List Portion) (system : Development V σ) :
    ((system.drive (portions.map .take)).1.map List.sum, (system.drive (portions.map .take)).2) =
      system.advancePass (totalLimit portions) := by
  induction portions generalizing system with
  | nil => rfl
  | cons portion rest inductionHypothesis =>
      cases running : system.isGenerating with
      | true =>
          rw [List.map_cons, drive_take running, totalLimit_cons, advancePass_add]
          rcases system.advancePass portion.limit with ⟨fault | taken, after⟩
          · rfl
          · dsimp only
            rw [← inductionHypothesis after]
            rcases after.drive (rest.map .take) with ⟨fault | counts, final⟩ <;> rfl
      | false =>
          rw [drive_of_idle running, advancePass, advancePassFrom_of_idle running]
          rfl

theorem drive_portions_counts {portions : List Portion} {system after : Development V σ}
    {counts : List Nat} (driven : system.drive (portions.map .take) = (.ok counts, after)) :
    counts = portionCounts portions system.stepsLeft := by
  induction portions generalizing system counts with
  | nil =>
      cases driven
      rfl
  | cons portion rest inductionHypothesis =>
      cases running : system.isGenerating with
      | true =>
          rw [List.map_cons, drive_take running] at driven
          rcases advanced : system.advancePass portion.limit with ⟨fault | taken, next⟩
          · rw [advanced] at driven
            cases driven
          · rw [advanced] at driven
            dsimp only at driven
            rcases followed : next.drive (rest.map .take) with ⟨fault | counts, final⟩
            · rw [followed] at driven
              cases driven
            · rw [followed] at driven
              cases driven
              rcases advancePass_eq_ok advanced with ⟨count, left⟩
              have some : system.stepsLeft ≠ 0 := Nat.ne_of_gt (isGenerating_iff.mp running)
              rcases Nat.exists_eq_succ_of_ne_zero some with ⟨fewer, more⟩
              rw [inductionHypothesis followed, count, left, more]
              rfl
      | false =>
          rw [drive_of_idle running] at driven
          cases driven
          rw [isGenerating_eq_false_iff.mp running]
          rfl

example : portionCounts [.chunk 2, .step, .chunk 0, .chunk 9, .step] 5 = [2, 1, 0, 2] := by decide

/-- All ways of cutting a pass into portions come to the same. -/
theorem drive_eq_generate (portions : List Portion) {system : Development V σ}
    (finished : (system.beginPass.drive (portions.map .take)).2.isGenerating = false) :
    ((system.beginPass.drive (portions.map .take)).1.map fun _ => (),
        (system.beginPass.drive (portions.map .take)).2) = system.generate := by
  have whole := drive_portions portions system.beginPass
  have ended : (system.beginPass.advancePass (totalLimit portions)).2.isGenerating = false := by
    rw [← whole]
    exact finished
  have enough := advancePass_finishes (Nat.le_of_eq system.stepsLeft_beginPass)
  rw [generate_eq, ← advancePass_eq_of_finished ended enough, ← whole]
  rcases system.beginPass.drive (portions.map .take) with ⟨fault | counts, after⟩
  · rfl
  · rfl

/-- One go is a schedule of one chunk. -/
theorem generate_eq_drive (system : Development V σ) :
    ((system.beginPass.drive [.take (.chunk (Forest.size system.current))]).1.map fun _ => (),
        (system.beginPass.drive [.take (.chunk (Forest.size system.current))]).2) =
      system.generate := by
  apply drive_eq_generate [.chunk (Forest.size system.current)]
  have whole := drive_portions [.chunk (Forest.size system.current)] system.beginPass
  have ended := advancePass_finishes (Nat.le_of_eq system.stepsLeft_beginPass)
  have total : totalLimit [.chunk (Forest.size system.current)] = Forest.size system.current := rfl
  rw [total] at whole
  rw [← whole] at ended
  exact ended

end Development
end LSystem
