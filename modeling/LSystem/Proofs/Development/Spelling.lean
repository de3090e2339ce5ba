import LSystem.Proofs.Development.Interaction
import LSystem.Proofs.Development.RenderingRun
import LSystem.Proofs.Forest.Spelling

namespace LSystem

/-!
# Rendering branches that are spelled out

A rendering hands the symbols and arguments of its steps to the host and nothing else.
Two systems, one of which has bracket modules where the other has branches, therefore stay
in step with each other through all that a host can do about renderings.  Main statement:
whatever the actions are and however the renderings are cut into portions, both make the
same calls and give the same answers and reports.
-/

variable {V σ : Type}

/-! ## Steps side by side -/

@[simp]
theorem Visit.call?_spelled (actions : Actions V σ) (visit : Visit V) :
    visit.spelled.call? actions = visit.call? actions := by
  simp [call?]

@[simp]
theorem callsOf_map_spelled (inForce : Nat → Actions V σ) (walk : List (Visit V)) :
    callsOf inForce (walk.map Visit.spelled) = callsOf inForce walk := by
  rw [callsOf, callsOf, List.zipIdx_map, List.filterMap_map]
  congr
  funext entry
  simp

namespace Rendering

/-- A rendering that has the spelled steps of another one before it, and the same counts
behind it. -/
structure Mirrors (rendering other : Rendering V) : Prop where
  ahead : other.cursor.position.ahead = rendering.cursor.position.ahead.map Visit.spelled
  tally : other.tally = rendering.tally

theorem mirrors_start (forest : Forest V) : Mirrors (start forest) (start forest.spelled) where
  ahead := by simp
  tally := rfl

namespace Mirrors

variable {rendering other : Rendering V}

theorem hasNext (mirrors : Mirrors rendering other) : other.hasNext = rendering.hasNext := by
  rw [Bool.eq_iff_iff, hasNext_iff, hasNext_iff, mirrors.ahead, List.length_map]

/-- A step of both makes the same call. -/
theorem step (mirrors : Mirrors rendering other) (running : rendering.hasNext = true)
    (actions : Actions V σ) (host : σ) :
    ∃ next otherNext after, rendering.step actions host = .ok (next, after) ∧
      other.step actions host = .ok (otherNext, after) ∧ Mirrors next otherNext := by
  rcases exists_call running actions host with ⟨visit, next, taken, moved, counted⟩
  rcases exists_call (mirrors.hasNext.trans running) actions host with
    ⟨otherVisit, otherNext, otherTaken, otherMoved, otherCounted⟩
  have ahead := mirrors.ahead
  rw [moved.ahead, otherMoved.ahead, List.map_cons] at ahead
  rcases List.cons.inj ahead with ⟨rfl, onward⟩
  rw [Visit.call?_spelled] at otherTaken otherCounted
  refine ⟨next, otherNext, _, taken, otherTaken, onward, ?_⟩
  rw [otherCounted, counted, mirrors.tally]

end Mirrors

theorem step_of_finished {rendering : Rendering V} (finished : rendering.hasNext = false)
    (actions : Actions V σ) (host : σ) : rendering.step actions host = .error .exhaustedWalk := by
  have stopped : rendering.cursor.position.step? = none := by
    rw [hasNext, Cursor.hasNext_eq_isSome_step?] at finished
    exact Option.isNone_iff_eq_none.mp (Option.isSome_eq_false_iff.mp finished)
  rw [step, Cursor.next, stopped]

end Rendering

/-! ## Systems side by side -/

namespace Development

/-- A system with bracket modules where another one has branches, and all else that bears
on renderings the same. -/
structure Mirrors (system other : Development V σ) : Prop where
  current : other.current = system.current.spelled
  actions : other.actions = system.actions
  host : other.host = system.host
  lastRendering : other.lastRendering = system.lastRendering
  rendering : Option.Rel Rendering.Mirrors system.rendering other.rendering

namespace Mirrors

variable {system other : Development V σ}

theorem isRendering (mirrors : Mirrors system other) : other.isRendering = system.isRendering := by
  have parked := mirrors.rendering
  rw [Development.isRendering, Development.isRendering]
  generalize system.rendering = first, other.rendering = second at parked ⊢
  cases parked with
  | none => rfl
  | some parked => exact parked.hasNext

theorem parkRendering (mirrors : Mirrors system other) {rendering otherRendering : Rendering V}
    (parked : Rendering.Mirrors rendering otherRendering) :
    Mirrors (system.parkRendering rendering) (other.parkRendering otherRendering) := by
  rw [Development.parkRendering, Development.parkRendering, parked.hasNext]
  split
  · exact { mirrors with rendering := .some parked }
  · exact { mirrors with lastRendering := congrArg some parked.tally, rendering := .none }

theorem beginRendering (mirrors : Mirrors system other) :
    Mirrors system.beginRendering other.beginRendering := by
  rw [Development.beginRendering, Development.beginRendering, mirrors.current]
  exact mirrors.parkRendering (Rendering.mirrors_start system.current)

/-- A step is taken in both systems, or refused in both for the same reason. -/
theorem stepRendering (mirrors : Mirrors system other) :
    (∃ violation, system.stepRendering = .error violation ∧
      other.stepRendering = .error violation) ∨
    ∃ after otherAfter, system.stepRendering = .ok after ∧
      other.stepRendering = .ok otherAfter ∧ Mirrors after otherAfter := by
  have parked := mirrors.rendering
  rcases first : system.rendering with _ | rendering <;>
    rcases second : other.rendering with _ | otherRendering <;>
    rw [first, second] at parked <;> rcases parked with parked | _
  · refine .inl ⟨.noRenderInProgress, ?_, ?_⟩
    · rw [Development.stepRendering, first]
    · rw [Development.stepRendering, second]
  · cases running : rendering.hasNext with
    | false =>
        have stopped := parked.hasNext.trans running
        refine .inl ⟨.exhaustedWalk, ?_, ?_⟩
        · simp only [Development.stepRendering, first, Rendering.step_of_finished running,
            Except.map]
        · simp only [Development.stepRendering, second, Rendering.step_of_finished stopped,
            Except.map]
    | true =>
        rcases parked.step running system.actions system.host with
          ⟨next, otherNext, host, taken, otherTaken, onward⟩
        rw [← mirrors.actions, ← mirrors.host] at otherTaken
        have same : Mirrors { system with host } { other with host } :=
          { mirrors with host := rfl }
        refine .inr ⟨({ system with host }).parkRendering next,
          ({ other with host }).parkRendering otherNext, ?_, ?_, same.parkRendering onward⟩
        · simp only [Development.stepRendering, first, taken, Except.map]
        · simp only [Development.stepRendering, second, otherTaken, Except.map]

/-- Several steps have the same length in both systems, or are refused for the same reason. -/
theorem advanceRenderingFrom (mirrors : Mirrors system other) (taken limit : Nat) :
    (Development.advanceRenderingFrom taken limit other).1 =
        (Development.advanceRenderingFrom taken limit system).1 ∧
      Mirrors (Development.advanceRenderingFrom taken limit system).2
        (Development.advanceRenderingFrom taken limit other).2 := by
  induction limit generalizing taken system other with
  | zero => exact ⟨rfl, mirrors⟩
  | succ limit inductionHypothesis =>
      rw [Development.advanceRenderingFrom, Development.advanceRenderingFrom, mirrors.isRendering]
      split
      · rcases mirrors.stepRendering with
          ⟨violation, refused, otherRefused⟩ | ⟨after, otherAfter, stepped, otherStepped, onward⟩
        · rw [refused, otherRefused]
          exact ⟨rfl, mirrors⟩
        · rw [stepped, otherStepped]
          exact inductionHypothesis onward (taken + 1)
      · exact ⟨rfl, mirrors⟩

theorem advanceRendering (mirrors : Mirrors system other) (limit : Nat) :
    (other.advanceRendering limit).1 = (system.advanceRendering limit).1 ∧
      Mirrors (system.advanceRendering limit).2 (other.advanceRendering limit).2 := by
  have advanced := mirrors.advanceRenderingFrom 0 limit
  rw [advanceRenderingFrom_zero, advanceRenderingFrom_zero] at advanced
  exact ⟨Except.ok.inj advanced.1, advanced.2⟩

theorem render (mirrors : Mirrors system other) : Mirrors system.render other.render := by
  rw [Development.render, Development.render, mirrors.current, Forest.size_spelled]
  exact (mirrors.beginRendering.advanceRendering _).2

/-- Whatever a host does about renderings, it gets the same answer from both systems. -/
theorem perform (mirrors : Mirrors system other) {operation : Operation V σ}
    (concerned : operation.concernsRendering = true) :
    (operation.perform other).1 = (operation.perform system).1 ∧
      Mirrors (operation.perform system).2 (operation.perform other).2 := by
  cases operation with
  | bind symbol action =>
      refine ⟨rfl, { mirrors with actions := ?_ }⟩
      exact congrArg (fun actions => actions.insert symbol action) mirrors.actions
  | unbind symbol =>
      refine ⟨rfl, { mirrors with actions := ?_ }⟩
      exact congrArg (fun actions => actions.erase symbol) mirrors.actions
  | render =>
      rw [Operation.perform_render, Operation.perform_render]
      exact ⟨rfl, mirrors.render⟩
  | beginRendering => exact ⟨rfl, mirrors.beginRendering⟩
  | stepRendering =>
      rw [Operation.perform.eq_def, Operation.perform.eq_def]
      dsimp only
      rcases mirrors.stepRendering with
        ⟨violation, refused, otherRefused⟩ | ⟨after, otherAfter, stepped, otherStepped, onward⟩
      · rw [refused, otherRefused]
        exact ⟨rfl, mirrors⟩
      · rw [stepped, otherStepped]
        exact ⟨rfl, onward⟩
  | advanceRendering limit =>
      rcases mirrors.advanceRendering limit with ⟨counted, onward⟩
      rw [Operation.perform_advanceRendering, Operation.perform_advanceRendering, counted]
      exact ⟨rfl, onward⟩
  | _ => cases concerned

theorem performAll (mirrors : Mirrors system other) {operations : List (Operation V σ)}
    (concerned : ∀ operation ∈ operations, operation.concernsRendering = true) :
    Mirrors (Operation.performAll operations system) (Operation.performAll operations other) := by
  induction operations generalizing system other with
  | nil => exact mirrors
  | cons operation rest inductionHypothesis =>
      rw [List.forall_mem_cons] at concerned
      exact inductionHypothesis (mirrors.perform concerned.1).2 concerned.2

end Mirrors

/-! ## Looks -/

open Operation

/-- A system has bracket modules where another one has branches.  Neither has a rendering
in progress, and what bears on renderings besides is the same in both. -/
structure SpellsOut (other system : Development V σ) : Prop where
  current : other.current = system.current.spelled
  actions : other.actions = system.actions
  host : other.host = system.host
  lastRendering : other.lastRendering = system.lastRendering
  idle : system.rendering = none
  otherIdle : other.rendering = none

theorem SpellsOut.mirrors {system other : Development V σ} (spellsOut : SpellsOut other system) :
    Mirrors system other where
  current := spellsOut.current
  actions := spellsOut.actions
  host := spellsOut.host
  lastRendering := spellsOut.lastRendering
  rendering := by
    rw [spellsOut.idle, spellsOut.otherIdle]
    exact .none

theorem spellsOut_fresh (start : Forest V) (rules : RuleTable V) (ignore : List Symbol)
    (actions : Actions V σ) (host : σ) (chance : Chance) :
    SpellsOut (fresh start.spelled rules ignore actions host chance)
      (fresh start rules ignore actions host chance) :=
  ⟨rfl, rfl, rfl, rfl, rfl, rfl⟩

/-- No rendering and no dump tells two systems apart. -/
structure LooksAlike (system other : Development V σ) : Prop where
  counted : Forest.size other.current = Forest.size system.current
  dumped : ∀ (style : DumpStyle) (write : V → String),
    Forest.dump style write other.current = Forest.dump style write system.current
  /-- Whatever actions are in force at each step, the same symbols are called with the
  same arguments in the same order. -/
  called : ∀ inForce : Nat → Actions V σ,
    callsOf inForce (Forest.visits other.current) =
      callsOf inForce (Forest.visits system.current)
  /-- Whatever a host has done about renderings, the calls have brought it to the same
  state, and the last report is the same. -/
  rendered : ∀ operations : List (Operation V σ),
    (∀ operation ∈ operations, operation.concernsRendering = true) →
    (performAll operations other).host = (performAll operations system).host ∧
      (performAll operations other).lastRendering =
        (performAll operations system).lastRendering ∧
      (performAll operations other).isRendering = (performAll operations system).isRendering
  /-- What it is told next, the length of a portion included, is the same as well. -/
  answered : ∀ (operations : List (Operation V σ)) (next : Operation V σ),
    (∀ operation ∈ operations, operation.concernsRendering = true) →
    next.concernsRendering = true →
    (next.perform (performAll operations other)).1 =
      (next.perform (performAll operations system)).1
  /-- Renderings that are finished agree, even if they have been cut into different
  portions. -/
  regrouped : ∀ {portions otherPortions : List (Operation V σ)},
    (∀ portion ∈ portions ++ otherPortions,
      portion = .stepRendering ∨ ∃ limit, portion = .advanceRendering limit) →
    (performAll portions system.beginRendering).isRendering = false →
    (performAll otherPortions other.beginRendering).isRendering = false →
    (performAll otherPortions other.beginRendering).host =
        (performAll portions system.beginRendering).host ∧
      (performAll otherPortions other.beginRendering).lastRendering =
        (performAll portions system.beginRendering).lastRendering

/-- A rendering in portions that has come to its end is a rendering in one go. -/
theorem performAll_eq_render {portions : List (Operation V σ)} {system : Development V σ}
    (only : ∀ portion ∈ portions,
      portion = .stepRendering ∨ ∃ limit, portion = .advanceRendering limit)
    (finished : (performAll portions system.beginRendering).isRendering = false) :
    performAll portions system.beginRendering = system.render := by
  rw [performAll_eq_advanceRendering only] at finished ⊢
  exact congrArg Prod.snd (advanceRendering_eq_of_finished finished (isRendering_render system))

/-- Bracket modules in place of branches are not to be told from them by renderings and
dumps. -/
theorem looksAlike_of_spellsOut {system other : Development V σ}
    (spellsOut : SpellsOut other system) : LooksAlike system other := by
  have mirrors := spellsOut.mirrors
  exact
    { counted := by rw [spellsOut.current, Forest.size_spelled]
      dumped := by
        intro style write
        rw [spellsOut.current, Forest.dump_spelled]
      called := by
        intro inForce
        rw [spellsOut.current, Forest.visits_spelled, callsOf_map_spelled]
      rendered := by
        intro operations concerned
        have after := mirrors.performAll concerned
        exact ⟨after.host, after.lastRendering, after.isRendering⟩
      answered := by
        intro operations next concerned alsoNext
        exact ((mirrors.performAll concerned).perform alsoNext).1
      regrouped := by
        intro portions otherPortions only finished otherFinished
        rw [List.forall_mem_append] at only
        rw [performAll_eq_render only.1 finished, performAll_eq_render only.2 otherFinished]
        exact ⟨mirrors.render.host, mirrors.render.lastRendering⟩ }

/-- The sprig with bracket modules at the ends of its branch. -/
def spelledSprig : Development Nat (List (Symbol × List Nat)) :=
  fresh sprig.start.spelled sprig.rules sprig.ignore sprig.actions sprig.host sprig.chance

theorem sprig_looksAlike :
    SpellsOut spelledSprig sprig ∧ LooksAlike sprig spelledSprig ∧
      spelledSprig.current =
        [.leaf ⟨⟨"F"⟩, [1]⟩, .leaf (.plain .opening), .leaf ⟨⟨"leaf"⟩, [2]⟩,
          .leaf (.plain .closing), .leaf ⟨⟨"F"⟩, [3]⟩] ∧
      spelledSprig.render.host =
        [(⟨"F"⟩, [1]), (.opening, []), (.closing, []), (⟨"F"⟩, [3])] := by
  have spellsOut : SpellsOut spelledSprig sprig :=
    spellsOut_fresh sprig.start sprig.rules sprig.ignore sprig.actions sprig.host sprig.chance
  exact ⟨spellsOut, looksAlike_of_spellsOut spellsOut, rfl, by decide⟩

end Development
end LSystem
