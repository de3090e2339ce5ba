import LSystem.Development.Render
import LSystem.Proofs.Development.Progress

namespace LSystem

/-!
# Operations

All that a host can do with a system once it has been set up, as data, so that
statements can be made about every order in which a host may do it.  An
operation that fails is no end: the host can go on with the system it leaves.
-/

/-- What a host can do with a system. -/
inductive Operation (V σ : Type) where
  | reset
  | setRules (rules : List (Rule V))
  | bind (symbol : Symbol) (action : Action V σ)
  | unbind (symbol : Symbol)
  | generate
  | generateMany (passes : Nat)
  | beginPass
  | stepPass
  | advancePass (limit : Nat)
  | render
  | beginRendering
  | stepRendering
  | advanceRendering (limit : Nat)

namespace Operation

variable {V σ : Type}

open Development (advanceRenderingFrom)

/-- What the host is told of steps of a rendering.  It would hear of a refusal. -/
def told (answer : Nat → Option Nat)
    (made : Except ContractViolation Nat × Development V σ) :
    Except Fault (Option Nat) × Development V σ :=
  ((made.1.mapError Fault.violation).map answer, made.2)

/-- Performs an operation.  The host is told about faults, and how many steps
have been taken where it has asked for several. -/
def perform (system : Development V σ) :
    Operation V σ → Except Fault (Option Nat) × Development V σ
  | reset => (.ok none, system.reset)
  | setRules rules =>
      match system.setRules rules with
      | .error error => (.error (.configuration error), system)
      | .ok after => (.ok none, after)
  | bind symbol action => (.ok none, system.bind symbol action)
  | unbind symbol => (.ok none, system.unbind symbol)
  | generate => (system.generate.1.map fun _ => none, system.generate.2)
  | generateMany passes =>
      ((system.generateMany passes).1.map fun _ => none, (system.generateMany passes).2)
  | beginPass => (.ok none, system.beginPass)
  | stepPass => (system.stepPass.1.map fun _ => none, system.stepPass.2)
  | advancePass limit => ((system.advancePass limit).1.map some, (system.advancePass limit).2)
  | render => told (fun _ => none)
      (advanceRenderingFrom 0 (Forest.size system.current) system.beginRendering)
  | beginRendering => (.ok none, system.beginRendering)
  | stepRendering =>
      match system.stepRendering with
      | .error violation => (.error (.violation violation), system)
      | .ok after => (.ok none, after)
  | advanceRendering limit => told some (advanceRenderingFrom 0 limit system)

@[simp]
theorem perform_render (system : Development V σ) :
    render.perform system = (.ok none, system.render) := by
  rw [perform, Development.advanceRenderingFrom_zero]
  rfl

@[simp]
theorem perform_advanceRendering (limit : Nat) (system : Development V σ) :
    (advanceRendering limit).perform system =
      (.ok (some (system.advanceRendering limit).1), (system.advanceRendering limit).2) := by
  rw [perform, Development.advanceRenderingFrom_zero]
  rfl

/-- Performs operations one after another, whether they fail or not. -/
def performAll (operations : List (Operation V σ)) (system : Development V σ) :
    Development V σ :=
  operations.foldl (fun system operation => (operation.perform system).2) system

/-- What every operation keeps, all of them together keep. -/
theorem performAll_keeps {motive : Development V σ → Prop}
    (kept : ∀ (operation : Operation V σ) system, motive system →
      motive (operation.perform system).2)
    (operations : List (Operation V σ)) {system : Development V σ} (first : motive system) :
    motive (performAll operations system) := by
  induction operations generalizing system with
  | nil => exact first
  | cons operation rest inductionHypothesis =>
      exact inductionHypothesis (kept operation system first)

/-- Whether an operation begins a pass or goes on with one. -/
def generates : Operation V σ → Bool
  | generate => true
  | generateMany _ => true
  | beginPass => true
  | stepPass => true
  | advancePass _ => true
  | _ => false

/-- Passes are made of steps, and each of them ends with a pass that is parked.  What
parking a pass and stepping it keep, every operation that generates keeps. -/
theorem perform_keeps_of_generates {motive : Development V σ → Prop}
    {operation : Operation V σ} (generates : operation.generates = true)
    {system : Development V σ} (first : motive system)
    (parked : ∀ pass before, motive before → motive (before.parkPass pass))
    (stepped : ∀ before, motive before → motive before.stepPass.2) :
    motive (operation.perform system).2 := by
  have advanced (limit : Nat) (before : Development V σ) (holds : motive before) :
      motive (before.advancePass limit).2 :=
    Development.advancePass_keeps holds (fun before running => stepped before) limit
  have generated (before : Development V σ) (holds : motive before) :
      motive before.generate.2 := by
    rw [Development.generate_eq]
    exact advanced _ before.beginPass (parked _ before holds)
  cases operation with
  | generate => exact generated system first
  | generateMany passes => exact Development.generateMany_keeps first generated passes
  | beginPass => exact parked _ system first
  | stepPass => exact stepped system first
  | advancePass limit => exact advanced limit system first
  | reset => cases generates
  | setRules => cases generates
  | bind => cases generates
  | unbind => cases generates
  | render => cases generates
  | beginRendering => cases generates
  | stepRendering => cases generates
  | advanceRendering => cases generates

end Operation

end LSystem
