import LSystem.Development.Basic

namespace LSystem

/-!
# Rendering a system

The current generation is rendered in one go by `render`, or in steps:
`beginRendering` starts a rendering and `stepRendering` takes one step of it.  A
single step can be refused.  Several steps are taken only as long as a rendering
is in progress, and so none of them is refused.
-/

namespace Development

variable {V σ : Type}

/-- Parks a rendering until its next step, or reports on it if it has none. -/
def parkRendering (rendering : Rendering V) (system : Development V σ) : Development V σ :=
  if rendering.hasNext then { system with rendering := some rendering }
  else { system with rendering := none, lastRendering := some rendering.tally }

/-- Starts a rendering in place of an unfinished one. -/
def beginRendering (system : Development V σ) : Development V σ :=
  system.parkRendering (.start system.current)

/-- Whether a rendering is in progress. -/
def isRendering (system : Development V σ) : Bool := system.rendering.any (·.hasNext)

/-- One step of the rendering in progress. -/
def stepRendering (system : Development V σ) : Except ContractViolation (Development V σ) :=
  match system.rendering with
  | none => .error .noRenderInProgress
  | some rendering =>
      (rendering.step system.actions system.host).map fun (rendering, host) =>
        ({ system with host }).parkRendering rendering

/-- A rendering in progress is not refused its next step. -/
theorem exists_stepRendering {system : Development V σ} (running : system.isRendering = true) :
    ∃ after, system.stepRendering = .ok after := by
  rw [isRendering] at running
  rw [stepRendering]
  rcases parked : system.rendering with _ | rendering
  · rw [parked] at running
    cases running
  · rw [parked] at running
    rcases rendering.exists_step running system.actions system.host with ⟨next, host, taken⟩
    dsimp only
    rw [taken]
    exact ⟨_, rfl⟩

/-- Takes up to `limit` steps and adds their number to `taken`.  If a step is
refused, so is the rest. -/
def advanceRenderingFrom (taken : Nat) :
    Nat → Development V σ → Except ContractViolation Nat × Development V σ
  | 0, system => (.ok taken, system)
  | limit + 1, system =>
      if system.isRendering then
        match system.stepRendering with
        | .error violation => (.error violation, system)
        | .ok system => advanceRenderingFrom (taken + 1) limit system
      else (.ok taken, system)

/-- No step is refused, because the rendering is asked before each of them. -/
theorem advanceRenderingFrom_ne_error (taken limit : Nat) (system : Development V σ)
    (violation : ContractViolation) (after : Development V σ) :
    advanceRenderingFrom taken limit system ≠ (.error violation, after) := by
  induction limit generalizing taken system with
  | zero => exact nofun
  | succ limit inductionHypothesis =>
      rw [advanceRenderingFrom]
      split
      · next running =>
          rcases exists_stepRendering running with ⟨next, taken⟩
          rw [taken]
          exact inductionHypothesis _ next
      · exact nofun

/-- Takes up to `limit` steps of the rendering in progress and says how many
there were. -/
def advanceRendering (limit : Nat) (system : Development V σ) : Nat × Development V σ :=
  match advanced : advanceRenderingFrom 0 limit system with
  | (.ok taken, after) => (taken, after)
  | (.error violation, after) =>
      absurd advanced (advanceRenderingFrom_ne_error 0 limit system violation after)

/-- The steps that are taken are those of the loop, and all that it reports is
their number. -/
theorem advanceRenderingFrom_zero (limit : Nat) (system : Development V σ) :
    advanceRenderingFrom 0 limit system =
      (.ok (system.advanceRendering limit).1, (system.advanceRendering limit).2) := by
  rw [advanceRendering]
  split
  · next taken after advanced => exact advanced
  · next violation after advanced =>
      exact absurd advanced (advanceRenderingFrom_ne_error 0 limit system violation after)

/-- One whole rendering.  It has as many steps as the generation has elements. -/
def render (system : Development V σ) : Development V σ :=
  (system.beginRendering.advanceRendering (Forest.size system.current)).2

end Development
end LSystem
