import LSystem.Development.Render
import LSystem.Proofs.Rendering.Calls

namespace LSystem

/-!
# Progress of a rendering

A rendering walks through the generation as a pass does, but nothing can go
wrong on the way: as long as something is ahead it can take a step, whatever
actions are bound.  So it is finished after as many steps as the generation has
elements, and it does not matter how they are grouped.
-/

variable {V σ : Type}

namespace Rendering

theorem hasNext_iff {rendering : Rendering V} :
    rendering.hasNext = true ↔ 0 < rendering.cursor.position.ahead.length := Cursor.hasNext_iff

/-- What one step of a rendering does to it.  The host may change in any way. -/
structure Step (rendering next : Rendering V) : Prop where
  moved : ∃ visit, Place.Step rendering.cursor.position visit next.cursor.position
  visited_eq : next.tally.visited = rendering.tally.visited + 1

theorem exists_onward {rendering : Rendering V} (running : rendering.hasNext = true)
    (actions : Actions V σ) (host : σ) :
    ∃ next after, rendering.step actions host = .ok (next, after) ∧ Step rendering next := by
  rcases exists_call running actions host with ⟨visit, next, taken, moved, counted⟩
  exact ⟨next, _, taken, ⟨visit, moved⟩, congrArg (·.visited) counted⟩

end Rendering

namespace Development

/-- The number of steps that the rendering in progress still has to take. -/
def renderingLeft (system : Development V σ) : Nat :=
  match system.rendering with
  | none => 0
  | some rendering => rendering.cursor.position.ahead.length

theorem isRendering_iff {system : Development V σ} :
    system.isRendering = true ↔ 0 < system.renderingLeft := by
  unfold isRendering renderingLeft
  cases system.rendering with
  | none => simp
  | some rendering => exact Rendering.hasNext_iff

theorem isRendering_eq_false_iff {system : Development V σ} :
    system.isRendering = false ↔ system.renderingLeft = 0 := by
  rw [← Bool.not_eq_true, isRendering_iff, Nat.not_lt, Nat.le_zero]

@[simp]
theorem renderingLeft_parkRendering (rendering : Rendering V) (system : Development V σ) :
    (system.parkRendering rendering).renderingLeft = rendering.cursor.position.ahead.length := by
  unfold parkRendering
  split
  · rfl
  · next finished =>
      rw [Rendering.hasNext_iff] at finished
      exact (Nat.eq_zero_of_not_pos finished).symm

@[simp]
theorem renderingLeft_beginRendering (system : Development V σ) :
    system.beginRendering.renderingLeft = Forest.size system.current := by
  simp [beginRendering]

/-! ## Steps -/

/-- A rendering in progress can always take its next step. -/
theorem stepRendering_of_isRendering {system : Development V σ}
    (running : system.isRendering = true) :
    ∃ rendering next host, system.rendering = some rendering ∧ Rendering.Step rendering next ∧
      system.stepRendering = .ok (({ system with host }).parkRendering next) := by
  unfold isRendering at running
  unfold stepRendering
  rcases parked : system.rendering with _ | rendering
  · rw [parked] at running
    cases running
  · rw [parked] at running
    rcases Rendering.exists_onward running system.actions system.host with
      ⟨next, host, taken, step⟩
    refine ⟨rendering, next, host, rfl, step, ?_⟩
    dsimp only
    rw [taken]
    rfl

/-- Without a rendering in progress a single step is refused. -/
theorem stepRendering_of_not_isRendering {system : Development V σ}
    (idle : system.isRendering = false) :
    ∃ violation, system.stepRendering = .error violation := by
  unfold isRendering at idle
  unfold stepRendering
  rcases parked : system.rendering with _ | rendering
  · exact ⟨.noRenderInProgress, rfl⟩
  · rw [parked] at idle
    have finished : rendering.cursor.hasNext = false := idle
    rw [Cursor.hasNext_eq_isSome_step?, Option.isSome_eq_false_iff, Option.isNone_iff_eq_none]
      at finished
    refine ⟨.exhaustedWalk, ?_⟩
    dsimp only
    unfold Rendering.step Cursor.next
    rw [finished]
    rfl

theorem renderingLeft_of_stepRendering {system after : Development V σ}
    (running : system.isRendering = true) (taken : system.stepRendering = .ok after) :
    after.renderingLeft + 1 = system.renderingLeft := by
  rcases stepRendering_of_isRendering running with ⟨rendering, next, host, parked, step, stepped⟩
  cases taken.symm.trans stepped
  rcases step.moved with ⟨visit, moved⟩
  rw [renderingLeft_parkRendering]
  unfold renderingLeft
  rw [parked]
  dsimp only
  rw [moved.ahead, List.length_cons]

/-! ## Several steps -/

theorem advanceRenderingFrom_of_idle {system : Development V σ}
    (idle : system.isRendering = false) (taken limit : Nat) :
    advanceRenderingFrom taken limit system = (.ok taken, system) := by
  cases limit with
  | zero => rfl
  | succ limit =>
      unfold advanceRenderingFrom
      rw [idle]
      rfl

theorem advanceRenderingFrom_succ {system after : Development V σ}
    (running : system.isRendering = true) (stepped : system.stepRendering = .ok after)
    (taken limit : Nat) :
    advanceRenderingFrom taken (limit + 1) system =
      advanceRenderingFrom (taken + 1) limit after := by
  rw [advanceRenderingFrom, if_pos running, stepped]

/-- Steps taken before only add to the count. -/
theorem advanceRenderingFrom_eq (taken limit : Nat) (system : Development V σ) :
    advanceRenderingFrom taken limit system =
      (.ok (taken + (system.advanceRendering limit).1), (system.advanceRendering limit).2) := by
  have shifted (base taken : Nat) :
      advanceRenderingFrom (base + taken) limit system =
        ((advanceRenderingFrom taken limit system).1.map (base + ·),
          (advanceRenderingFrom taken limit system).2) := by
    induction limit generalizing taken system with
    | zero => rfl
    | succ limit inductionHypothesis =>
        cases running : system.isRendering with
        | true =>
            rcases exists_stepRendering running with ⟨after, step⟩
            rw [advanceRenderingFrom_succ running step, advanceRenderingFrom_succ running step]
            exact inductionHypothesis after (taken + 1)
        | false =>
            rw [advanceRenderingFrom_of_idle running, advanceRenderingFrom_of_idle running]
            rfl
  have whole := shifted taken 0
  rw [Nat.add_zero, advanceRenderingFrom_zero] at whole
  exact whole

@[simp]
theorem advanceRendering_zero (system : Development V σ) :
    system.advanceRendering 0 = (0, system) := rfl

theorem advanceRendering_of_idle {system : Development V σ}
    (idle : system.isRendering = false) (limit : Nat) :
    system.advanceRendering limit = (0, system) := by
  have whole := advanceRenderingFrom_zero limit system
  rw [advanceRenderingFrom_of_idle idle] at whole
  rcases Prod.mk.inj whole with ⟨counted, unmoved⟩
  exact Prod.ext (Except.ok.inj counted).symm unmoved.symm

/-- The first of several steps is a step by itself. -/
theorem advanceRendering_succ {system after : Development V σ}
    (running : system.isRendering = true) (stepped : system.stepRendering = .ok after)
    (limit : Nat) :
    system.advanceRendering (limit + 1) =
      (1 + (after.advanceRendering limit).1, (after.advanceRendering limit).2) := by
  have whole := advanceRenderingFrom_zero (limit + 1) system
  rw [advanceRenderingFrom_succ running stepped, advanceRenderingFrom_eq] at whole
  rcases Prod.mk.inj whole with ⟨counted, moved⟩
  exact Prod.ext (Except.ok.inj counted).symm moved.symm

/-- What each step keeps, several steps keep. -/
theorem advanceRendering_keeps {motive : Development V σ → Prop} {system : Development V σ}
    (first : motive system)
    (stepped : ∀ before after, before.isRendering = true → before.stepRendering = .ok after →
      motive before → motive after)
    (limit : Nat) : motive (system.advanceRendering limit).2 := by
  induction limit generalizing system with
  | zero => exact first
  | succ limit inductionHypothesis =>
      cases running : system.isRendering with
      | true =>
          rcases exists_stepRendering running with ⟨after, step⟩
          rw [advanceRendering_succ running step]
          exact inductionHypothesis (stepped system after running step first)
      | false =>
          rw [advanceRendering_of_idle running]
          exact first

/-- Two chunks in a row are one chunk of both sizes. -/
theorem advanceRendering_add (first second : Nat) (system : Development V σ) :
    system.advanceRendering (first + second) =
      ((system.advanceRendering first).1 +
          ((system.advanceRendering first).2.advanceRendering second).1,
        ((system.advanceRendering first).2.advanceRendering second).2) := by
  induction first generalizing system with
  | zero => simp
  | succ first inductionHypothesis =>
      rw [Nat.succ_add]
      cases running : system.isRendering with
      | true =>
          rcases exists_stepRendering running with ⟨after, step⟩
          rw [advanceRendering_succ running step, advanceRendering_succ running step,
            inductionHypothesis, Nat.add_assoc]
      | false => simp only [advanceRendering_of_idle running, Nat.add_zero]

@[simp]
theorem renderingLeft_advanceRendering (limit : Nat) (system : Development V σ) :
    (system.advanceRendering limit).2.renderingLeft = system.renderingLeft - limit := by
  induction limit generalizing system with
  | zero => rfl
  | succ limit inductionHypothesis =>
      cases running : system.isRendering with
      | true =>
          rcases exists_stepRendering running with ⟨after, step⟩
          have fewer := renderingLeft_of_stepRendering running step
          rw [advanceRendering_succ running step, inductionHypothesis]
          omega
      | false =>
          rw [advanceRendering_of_idle running]
          rw [isRendering_eq_false_iff] at running
          dsimp only
          omega

/-- As many steps as are left finish the rendering. -/
theorem advanceRendering_finishes {limit : Nat} {system : Development V σ}
    (enough : system.renderingLeft ≤ limit) :
    (system.advanceRendering limit).2.isRendering = false := by
  rw [isRendering_eq_false_iff, renderingLeft_advanceRendering]
  omega

/-- A whole rendering leaves none in progress. -/
theorem isRendering_render (system : Development V σ) : system.render.isRendering = false :=
  advanceRendering_finishes (Nat.le_of_eq system.renderingLeft_beginRendering)

/-- Once the rendering is finished further steps change nothing. -/
theorem advanceRendering_of_le {first second : Nat} {system : Development V σ}
    (finished : (system.advanceRendering first).2.isRendering = false) (more : first ≤ second) :
    system.advanceRendering second = system.advanceRendering first := by
  rcases Nat.exists_eq_add_of_le more with ⟨extra, rfl⟩
  rw [advanceRendering_add, advanceRendering_of_idle finished, Nat.add_zero]

end Development
end LSystem
