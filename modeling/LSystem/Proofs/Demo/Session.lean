import LSystem.Demo.Session
import LSystem.Proofs.Development.Rendering
import LSystem.Proofs.Development.Atomicity

namespace LSystem

/-!
# Sessions in chunks

A pass or a rendering may be cut into portions of any sizes, empty ones and too
large ones included.  The result is that of one go, and so is the result of a
whole session.  Only what the clock says can be different, so sessions are
compared without their durations.
-/

variable {V σ : Type}

namespace Development

/-! ## Passes in chunks of one size -/

theorem finishPass_eq_drive (chunk rounds : Nat) (system : Development V σ) :
    system.finishPass chunk rounds =
      ((system.drive ((List.replicate rounds (.chunk chunk)).map .take)).1.map fun _ => (),
        (system.drive ((List.replicate rounds (.chunk chunk)).map .take)).2) := by
  induction rounds generalizing system with
  | zero => rfl
  | succ rounds inductionHypothesis =>
      rw [List.replicate_succ, List.map_cons]
      cases running : system.isGenerating with
      | true =>
          rw [drive_take running, finishPass, if_pos running]
          dsimp only [Portion.limit]
          rcases system.advancePass chunk with ⟨fault | taken, after⟩
          · rfl
          · have answerless (outcome : Except Fault (List Nat)) :
                outcome.map (fun _ => ()) = (outcome.map (taken :: ·)).map fun _ => () := by
              cases outcome <;> rfl
            dsimp only
            rw [inductionHypothesis]
            exact Prod.ext (answerless _) rfl
      | false =>
          rw [drive_of_idle running, finishPass, running]
          rfl

theorem totalLimit_replicate (chunk rounds : Nat) :
    totalLimit (List.replicate rounds (.chunk chunk)) = rounds * chunk := by
  simp [totalLimit, Portion.limit]

/-- Portions that are large enough together finish the pass. -/
theorem drive_finishes {portions : List Portion} {system : Development V σ}
    (enough : Forest.size system.current ≤ totalLimit portions) :
    (system.beginPass.drive (portions.map .take)).2.isGenerating = false := by
  have whole := congrArg Prod.snd (drive_portions portions system.beginPass)
  dsimp only at whole
  rw [whole]
  apply advancePass_finishes
  rw [stepsLeft_beginPass]
  exact enough

theorem generateInChunks_eq_generate {chunk : Nat} (positive : 0 < chunk)
    (system : Development V σ) : system.generateInChunks chunk = system.generate := by
  unfold generateInChunks
  rw [finishPass_eq_drive]
  apply drive_eq_generate
  apply drive_finishes
  rw [totalLimit_replicate]
  exact Nat.le_mul_of_pos_right _ positive

/-! ## Renderings in chunks of one size -/

theorem finishRendering_eq_advanceRendering (chunk rounds : Nat) (system : Development V σ) :
    system.finishRendering chunk rounds = (system.advanceRendering (rounds * chunk)).2 := by
  induction rounds generalizing system with
  | zero =>
      rw [Nat.zero_mul]
      rfl
  | succ rounds inductionHypothesis =>
      cases running : system.isRendering with
      | true =>
          rw [finishRendering, if_pos running, Nat.succ_mul, Nat.add_comm, advanceRendering_add]
          exact inductionHypothesis (system.advanceRendering chunk).2
      | false =>
          rw [advanceRendering_of_idle running, finishRendering, running]
          rfl

theorem renderInChunks_eq_render {chunk : Nat} (positive : 0 < chunk)
    (system : Development V σ) : system.renderInChunks chunk = system.render := by
  have more : Forest.size system.current ≤ Forest.size system.current * chunk := by
    apply Nat.le_mul_of_pos_right
    exact positive
  have finished := advanceRendering_finishes (Nat.le_of_eq system.renderingLeft_beginRendering)
  unfold renderInChunks render
  rw [finishRendering_eq_advanceRendering, advanceRendering_of_le finished more]

/-! ## All ways of cutting -/

/-- What it means that it does not matter how the pass over a generation is cut
into portions. -/
structure IgnoresPortions (system : Development V σ) : Prop where
  /-- However it is cut, a pass that is carried through, to its end or to an error,
  comes to what one go comes to. -/
  carriedThrough : ∀ portions : List Portion,
    (system.beginPass.drive (portions.map .take)).2.isGenerating = false →
      ((system.beginPass.drive (portions.map .take)).1.map fun _ => (),
        (system.beginPass.drive (portions.map .take)).2) = system.generate
  /-- Enough steps carry it through. -/
  enough : ∀ portions : List Portion, Forest.size system.current ≤ totalLimit portions →
    (system.beginPass.drive (portions.map .take)).2.isGenerating = false
  /-- A chunk has as many steps as it may and as are left. -/
  chunk : ∀ limit taken after, system.advancePass limit = (.ok taken, after) →
    taken = min limit system.stepsLeft ∧ after.stepsLeft = system.stepsLeft - limit
  /-- So has every portion, and all that have been taken make up the generation. -/
  counts : ∀ (portions : List Portion) counts after,
    system.beginPass.drive (portions.map .take) = (.ok counts, after) →
      counts = portionCounts portions (Forest.size system.current) ∧
        counts.sum + after.stepsLeft = Forest.size system.current
  /-- Nothing is committed before the end, and one generation is at the end. -/
  committed : ∀ (portions : List Portion) counts after,
    system.beginPass.drive (portions.map .take) = (.ok counts, after) →
      after.generation = system.generation + if after.isGenerating then 0 else 1
  /-- After the end no step is taken any more. -/
  ended : ∀ (portions : List Portion) limit,
    (system.beginPass.drive (portions.map .take)).2.isGenerating = false →
      (system.beginPass.drive (portions.map .take)).2.advancePass limit =
        (.ok 0, (system.beginPass.drive (portions.map .take)).2)

theorem ignoresPortions (system : Development V σ) : system.IgnoresPortions where
  carriedThrough portions finished := drive_eq_generate portions finished
  enough _ := drive_finishes
  chunk _ _ _ advanced := advancePass_eq_ok advanced
  counts portions counts after driven := by
    have counted := drive_portions_counts driven
    have whole := drive_portions portions system.beginPass
    rw [driven] at whole
    have advanced : system.beginPass.advancePass (totalLimit portions) = (.ok counts.sum, after) :=
      whole.symm
    have taken := advancePass_eq_ok advanced
    rw [stepsLeft_beginPass] at counted taken
    exact ⟨counted, by omega⟩
  committed portions counts after driven := by
    have stage := stage_drive driven
    cases running : after.isGenerating with
    | true =>
        rcases stage.of_isGenerating running with ⟨_, _, _, _, _, same⟩
        rw [same]
        rfl
    | false =>
        rcases stage.of_idle running with ⟨_, _, _, _, _, same⟩
        rw [same]
        rfl
  ended portions limit finished := advancePassFrom_of_idle finished 0 limit

end Development

/-! ## Durations aside -/

/-- A stopwatch that changes nothing in the work it measures. -/
def Stopwatch.Faithful {τ : Type} (stopwatch : Stopwatch (StateM τ)) : Prop :=
  ∀ {α : Type} (work : Unit → α) (time : τ), ((stopwatch.measure work).run time).1.1 = work ()

/-- A clock that goes on by one whenever it is read. -/
def Stopwatch.ticking : Stopwatch (StateM Nat) :=
  ⟨fun work => do
    let time ← getModify (· + 1)
    pure (work (), time)⟩

theorem Stopwatch.faithful_ticking : ticking.Faithful := fun _ _ => rfl

theorem Stopwatch.exists_measure {τ α : Type} {stopwatch : Stopwatch (StateM τ)}
    (faithful : stopwatch.Faithful) (work : Unit → α) (time : τ) :
    ∃ nanoseconds later, (stopwatch.measure work).run time = ((work (), nanoseconds), later) := by
  have value := faithful work time
  rcases measured : (stopwatch.measure work).run time with ⟨⟨result, nanoseconds⟩, later⟩
  rw [measured] at value
  exact ⟨nanoseconds, later, by rw [← value]⟩

namespace Session

/-- What a session leads to, apart from the durations. -/
def untimed (session : Session) : Development Float Turtle × List PassReport :=
  (session.system, session.passes.map (·.report))

/-- What generations come to, made in some way, without any clock.  Reports are
added to those there are, last first. -/
def history (make : Development Float Turtle → Except Fault Unit × Development Float Turtle)
    (reports : List PassReport) : Nat → Development Float Turtle →
      Except Fault (List PassReport × Development Float Turtle)
  | 0, system => .ok (reports, system)
  | generations + 1, system =>
      match make system with
      | (.error fault, _) => .error fault
      | (.ok (), after) => history make (after.lastPass.toList ++ reports) generations after

variable {τ : Type} {stopwatch : Stopwatch (StateM τ)}

theorem untimed_makeGenerations (faithful : stopwatch.Faithful) (chunk : Option Nat)
    (passes : List TimedPass) (generations : Nat) (system : Development Float Turtle) (time : τ) :
    ((makeGenerations stopwatch chunk passes generations system).run time).1.map
        (fun made => (made.1.map (·.report), made.2)) =
      history (generate chunk) (passes.map (·.report)) generations system := by
  induction generations generalizing passes system time with
  | zero => rfl
  | succ generations inductionHypothesis =>
      rcases Stopwatch.exists_measure faithful (fun _ => generate chunk system) time with
        ⟨nanoseconds, later, measured⟩
      rw [makeGenerations, StateT.run_bind, measured, history]
      rcases generate chunk system with ⟨fault | ⟨⟩, after⟩
      · rfl
      · have reports : (after.lastPass.toList.map (TimedPass.mk · nanoseconds) ++ passes).map
            (·.report) = after.lastPass.toList ++ passes.map (·.report) := by
          rw [List.map_append, List.map_map]
          exact congrArg (· ++ _) (List.map_id _)
        dsimp only
        rw [← reports]
        exact inductionHypothesis _ after later

theorem untimed_run (faithful : stopwatch.Faithful) (chunk : Option Nat) (generations : Nat)
    (system : Development Float Turtle) (time : τ) :
    ((run stopwatch chunk generations system).run time).1.map untimed =
      (history (generate chunk) [] generations system).map
        fun made => (render chunk made.2, made.1.reverse) := by
  have making := untimed_makeGenerations faithful chunk [] generations system time
  rw [List.map_nil] at making
  rw [run, StateT.run_bind, ← making]
  rcases (makeGenerations stopwatch chunk [] generations system).run time with
    ⟨fault | ⟨passes, made⟩, later⟩
  · rfl
  · rcases Stopwatch.exists_measure faithful (fun _ => render chunk made) later with
      ⟨nanoseconds, last, measured⟩
    have finished : (do
        let rendered ← stopwatch.measure fun _ => render chunk made
        pure (.ok ⟨rendered.1, passes.reverse, rendered.2⟩) :
          StateM τ (Except Fault Session)).run later =
        (.ok ⟨render chunk made, passes.reverse, nanoseconds⟩, last) := by
      rw [StateT.run_bind, measured]
      rfl
    refine (congrArg (fun result => result.1.map untimed) finished).trans ?_
    unfold untimed
    dsimp only [Except.map]
    rw [List.map_reverse]

/-- A session in chunks is a session in one go, whatever the clocks say. -/
theorem untimed_run_chunk {chunk : Nat} (positive : 0 < chunk) {τ υ : Type}
    {first : Stopwatch (StateM τ)} {second : Stopwatch (StateM υ)}
    (firstFaithful : first.Faithful) (secondFaithful : second.Faithful) (generations : Nat)
    (system : Development Float Turtle) (time : τ) (other : υ) :
    ((run first (some chunk) generations system).run time).1.map untimed =
      ((run second none generations system).run other).1.map untimed := by
  have generates : generate (some chunk) = generate none := by
    funext system
    exact Development.generateInChunks_eq_generate positive system
  have renders : render (some chunk) = render none := by
    funext system
    exact Development.renderInChunks_eq_render positive system
  rw [untimed_run firstFaithful, untimed_run secondFaithful, generates, renders]

end Session

/-- In chunks of any size but zero, passes, renderings and whole sessions are
carried through and come to what they come to in one go, and a pass does so
however it is cut. -/
theorem inChunks_eq_inOneGo {chunk : Nat} (positive : 0 < chunk) (system : Development V σ) :
    system.IgnoresPortions ∧
      system.generateInChunks chunk = system.generate ∧
      (system.generateInChunks chunk).2.isGenerating = false ∧
      system.renderInChunks chunk = system.render ∧
      (system.renderInChunks chunk).isRendering = false ∧
      ∀ {τ υ : Type} (first : Stopwatch (StateM τ)) (second : Stopwatch (StateM υ)),
        first.Faithful → second.Faithful →
        ∀ generations (planted : Development Float Turtle) time other,
          ((Session.run first (some chunk) generations planted).run time).1.map Session.untimed =
            ((Session.run second none generations planted).run other).1.map Session.untimed := by
  have generates := system.generateInChunks_eq_generate positive
  have renders := system.renderInChunks_eq_render positive
  refine ⟨system.ignoresPortions, generates, ?_, renders, ?_, ?_⟩
  · rw [generates]
    exact system.isGenerating_generate
  · rw [renders]
    exact system.isRendering_render
  · intro τ υ first second firstFaithful secondFaithful generations planted time other
    exact Session.untimed_run_chunk positive firstFaithful secondFaithful generations planted time
      other

/-- A weed in chunks of three. -/
theorem weed_inChunks_eq_inOneGo :
    0 < 3 ∧ (Development.weed [0.3]).IgnoresPortions ∧
      (Development.weed [0.3]).generateInChunks 3 = (Development.weed [0.3]).generate ∧
      (Development.weed [0.3]).renderInChunks 3 = (Development.weed [0.3]).render ∧
      Stopwatch.ticking.Faithful ∧
      ∀ planted, ((Session.run Stopwatch.ticking (some 3) 2 planted).run 0).1.map Session.untimed =
        ((Session.run Stopwatch.ticking none 2 planted).run 5).1.map Session.untimed := by
  have positive : 0 < 3 := by decide
  rcases inChunks_eq_inOneGo positive (Development.weed [0.3]) with
    ⟨ignores, generates, _, renders, _, sessions⟩
  exact ⟨positive, ignores, generates, renders, Stopwatch.faithful_ticking, fun planted =>
    sessions .ticking .ticking Stopwatch.faithful_ticking Stopwatch.faithful_ticking 2 planted 0 5⟩

end LSystem
