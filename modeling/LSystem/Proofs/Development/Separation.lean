import LSystem.Proofs.Development.Consistency
import LSystem.Proofs.Development.Interaction

namespace LSystem

/-!
# Generating and rendering are separate

A pass and a rendering go over the same generation, and they may be in progress
at the same time.  A rendering reads that generation and changes nothing but the
host, so whoever only generates does not notice renderings.  A pass ends by
putting another generation in place, and with that it ends a rendering of the old
one; up to there the rendering does not notice the pass either.
-/

variable {V σ : Type}

namespace Development

/-! ## What does not belong to renderings -/

/-- A system without actions, host and renderings: all that generating depends
on, and all that it changes. -/
def bare (system : Development V σ) : Development V Unit where
  start := system.start
  rules := system.rules
  ignore := system.ignore
  actions := .empty
  host := ()
  chance := system.chance
  current := system.current
  generation := system.generation
  moduleCount := system.moduleCount
  pass := system.pass
  rendering := none
  lastPass := system.lastPass
  lastRendering := none

/-! ## Generating goes by the bare part -/

@[simp]
theorem bare_parkPass (pass : Pass V) (system : Development V σ) :
    (system.parkPass pass).bare = system.bare.parkPass pass := by
  unfold parkPass
  split
  · rfl
  · rfl

theorem bare_stepPass (system : Development V σ) :
    system.bare.stepPass = (system.stepPass.1, system.stepPass.2.bare) := by
  have same : system.bare.pass = system.pass := rfl
  unfold stepPass
  rw [same]
  cases system.pass with
  | none => rfl
  | some pass =>
      have taken : pass.step system.bare.rules system.bare.ignore system.bare.chance =
          pass.step system.rules system.ignore system.chance := rfl
      dsimp only
      rw [taken]
      rcases pass.step system.rules system.ignore system.chance with ⟨fault | next, chance⟩
      · rfl
      · exact Prod.ext rfl (bare_parkPass next { system with chance }).symm

theorem bare_advancePassFrom (taken limit : Nat) (system : Development V σ) :
    advancePassFrom taken limit system.bare =
      ((advancePassFrom taken limit system).1, (advancePassFrom taken limit system).2.bare) := by
  induction limit generalizing taken system with
  | zero => rfl
  | succ limit inductionHypothesis =>
      cases running : system.isGenerating with
      | true =>
          have running' : system.bare.isGenerating = true := running
          rw [advancePassFrom_succ running, advancePassFrom_succ running', bare_stepPass]
          rcases system.stepPass with ⟨fault | ⟨⟩, after⟩
          · rfl
          · exact inductionHypothesis (taken + 1) after
      | false =>
          have idle : system.bare.isGenerating = false := running
          rw [advancePassFrom_of_idle running, advancePassFrom_of_idle idle]

theorem bare_beginPass (system : Development V σ) :
    system.beginPass.bare = system.bare.beginPass :=
  bare_parkPass (.start system.current) system

theorem bare_generate (system : Development V σ) :
    system.bare.generate = (system.generate.1, system.generate.2.bare) := by
  rw [generate_eq, generate_eq, ← bare_beginPass]
  unfold advancePass
  rw [bare_advancePassFrom]
  rfl

theorem bare_generateMany (passes : Nat) (system : Development V σ) :
    system.bare.generateMany passes =
      ((system.generateMany passes).1, (system.generateMany passes).2.bare) := by
  induction passes generalizing system with
  | zero => rfl
  | succ passes inductionHypothesis =>
      rw [generateMany, generateMany, bare_generate]
      rcases system.generate with ⟨fault | ⟨⟩, after⟩
      · rfl
      · exact inductionHypothesis after

theorem bare_offerRules (rules : List (Rule V)) (system : Development V σ) :
    (system.offerRules rules).bare = system.bare.offerRules rules := by
  rw [offerRules_eq, offerRules_eq]
  rfl

/-- What goes by the bare part comes to the same for systems that share it. -/
theorem agree_of_bare {α : Type} {run : Development V σ → α × Development V σ}
    {bareRun : Development V Unit → α × Development V Unit}
    (simulated : ∀ system, bareRun system.bare = ((run system).1, (run system).2.bare))
    {first second : Development V σ} (same : first.bare = second.bare) :
    (run first).1 = (run second).1 ∧ (run first).2.bare = (run second).2.bare := by
  have alike : ((run first).1, (run first).2.bare) = ((run second).1, (run second).2.bare) := by
    rw [← simulated, ← simulated, same]
  exact Prod.mk.inj alike

/-! ## Rendering leaves the bare part alone -/

@[simp]
theorem bare_parkRendering (rendering : Rendering V) (system : Development V σ) :
    (system.parkRendering rendering).bare = system.bare := by
  unfold parkRendering
  split
  · rfl
  · rfl

theorem bare_stepRendering {system after : Development V σ}
    (taken : system.stepRendering = .ok after) : after.bare = system.bare := by
  unfold stepRendering at taken
  split at taken
  · cases taken
  · next rendering parked =>
      rcases stepped : rendering.step system.actions system.host with violation | ⟨next, host⟩
      · rw [stepped] at taken
        cases taken
      · rw [stepped] at taken
        cases taken
        exact bare_parkRendering next { system with host }

theorem bare_advanceRendering (limit : Nat) (system : Development V σ) :
    (system.advanceRendering limit).2.bare = system.bare := by
  apply advanceRendering_keeps (motive := fun after => after.bare = system.bare)
  · rfl
  · intro before after running taken kept
    exact (bare_stepRendering taken).trans kept

/-! ## Generating spares renderings -/

/-- What becomes of renderings while a system generates.  A completed pass drops
the one that is in progress, and nothing else touches them. -/
structure Spares (system after : Development V σ) : Prop where
  actions : after.actions = system.actions
  host : after.host = system.host
  lastRendering : after.lastRendering = system.lastRendering
  generation : system.generation ≤ after.generation
  current : after.generation = system.generation → after.current = system.current
  rendering : after.rendering =
    if after.generation = system.generation then system.rendering else none

namespace Spares

theorem refl (system : Development V σ) : Spares system system where
  actions := rfl
  host := rfl
  lastRendering := rfl
  generation := Nat.le_refl _
  current _ := rfl
  rendering := (if_pos rfl).symm

theorem trans {first second third : Development V σ} (earlier : Spares first second)
    (later : Spares second third) : Spares first third where
  actions := later.actions.trans earlier.actions
  host := later.host.trans earlier.host
  lastRendering := later.lastRendering.trans earlier.lastRendering
  generation := Nat.le_trans earlier.generation later.generation
  current same := by
    have upward := earlier.generation
    have onward := later.generation
    rw [later.current (by omega), earlier.current (by omega)]
  rendering := by
    have upward := earlier.generation
    have onward := later.generation
    rw [later.rendering, earlier.rendering]
    by_cases same : third.generation = first.generation
    · rw [if_pos (by omega), if_pos (by omega), if_pos same]
    · by_cases last : third.generation = second.generation
      · rw [if_pos last, if_neg (by omega), if_neg same]
      · rw [if_neg last, if_neg same]

end Spares

/-- Neither the source of chance nor the pass in progress matters to renderings. -/
theorem spares_of_pass (chance : Chance) (pass : Option (Pass V)) (system : Development V σ) :
    Spares system { system with chance, pass } :=
  { Spares.refl system with }

theorem spares_commit (pass : Pass V) (system : Development V σ) :
    Spares system (system.commit pass) where
  actions := rfl
  host := rfl
  lastRendering := rfl
  generation := Nat.le_succ _
  current same := absurd same (Nat.succ_ne_self _)
  rendering := (if_neg (Nat.succ_ne_self _)).symm

theorem spares_parkPass (pass : Pass V) (system : Development V σ) :
    Spares system (system.parkPass pass) := by
  unfold parkPass
  split
  · exact spares_of_pass system.chance (some pass) system
  · exact spares_commit pass system

theorem spares_stepPass (system : Development V σ) : Spares system system.stepPass.2 := by
  unfold stepPass
  cases system.pass with
  | none => exact .refl system
  | some pass =>
      dsimp only
      rcases pass.step system.rules system.ignore system.chance with ⟨fault | next, chance⟩
      · exact spares_of_pass chance none system
      · exact (spares_of_pass chance system.pass system).trans (spares_parkPass next _)

theorem spares_offerRules (rules : List (Rule V)) (system : Development V σ) :
    Spares system (system.offerRules rules) := by
  rw [offerRules_eq]
  exact { Spares.refl system with }

end Development

namespace Operation

open Development

theorem bare_perform_of_concernsRendering {operation : Operation V σ}
    (concerns : operation.concernsRendering = true) (system : Development V σ) :
    (operation.perform system).2.bare = system.bare := by
  cases operation with
  | bind => rfl
  | unbind => rfl
  | render =>
      rw [perform_render]
      exact (bare_advanceRendering _ system.beginRendering).trans (bare_parkRendering _ system)
  | beginRendering => exact bare_parkRendering _ system
  | stepRendering =>
      rw [perform]
      rcases taken : system.stepRendering with violation | after
      · rfl
      · exact bare_stepRendering taken
  | advanceRendering limit =>
      rw [perform_advanceRendering]
      exact bare_advanceRendering limit system
  | reset => cases concerns
  | setRules => cases concerns
  | generate => cases concerns
  | generateMany => cases concerns
  | beginPass => cases concerns
  | stepPass => cases concerns
  | advancePass => cases concerns

/-- Whether rules are accepted depends on nothing but the rules. -/
theorem answer_setRules (rules : List (Rule V)) (system : Development V σ) :
    ((setRules rules).perform system).1 =
      match RuleTable.ofRules rules with
      | .error error => .error (.configuration error)
      | .ok _ => .ok none := by
  rw [perform, Development.setRules]
  rcases RuleTable.ofRules rules with error | table
  · rfl
  · rfl

/-- What a host is told, and what becomes of the bare part, depends on the bare
part alone. -/
theorem perform_agree {operation : Operation V σ}
    (apart : operation.concernsRendering = false) {first second : Development V σ}
    (same : first.bare = second.bare) :
    (operation.perform first).1 = (operation.perform second).1 ∧
      (operation.perform first).2.bare = (operation.perform second).2.bare := by
  cases operation with
  | reset =>
      have alike : first.bare.reset = second.bare.reset := congrArg Development.reset same
      exact ⟨rfl, alike⟩
  | setRules rules =>
      have alike := congrArg (offerRules rules) same
      rw [← bare_offerRules, ← bare_offerRules] at alike
      rw [perform_setRules, perform_setRules, answer_setRules, answer_setRules]
      exact ⟨rfl, alike⟩
  | generate =>
      rcases agree_of_bare bare_generate same with ⟨told, alike⟩
      exact ⟨congrArg (Except.map fun _ => none) told, alike⟩
  | generateMany passes =>
      rcases agree_of_bare (bare_generateMany passes) same with ⟨told, alike⟩
      exact ⟨congrArg (Except.map fun _ => none) told, alike⟩
  | beginPass =>
      have alike := congrArg Development.beginPass same
      rw [← bare_beginPass, ← bare_beginPass] at alike
      exact ⟨rfl, alike⟩
  | stepPass =>
      rcases agree_of_bare bare_stepPass same with ⟨told, alike⟩
      exact ⟨congrArg (Except.map fun _ => none) told, alike⟩
  | advancePass limit =>
      rcases agree_of_bare (bare_advancePassFrom 0 limit) same with ⟨told, alike⟩
      exact ⟨congrArg (Except.map some) told, alike⟩
  | bind => cases apart
  | unbind => cases apart
  | render => cases apart
  | beginRendering => cases apart
  | stepRendering => cases apart
  | advanceRendering => cases apart

theorem spares_of_generates {operation : Operation V σ} (generates : operation.generates = true)
    (system : Development V σ) : Spares system (operation.perform system).2 := by
  apply perform_keeps_of_generates generates (Spares.refl system)
  · intro pass before spared
    exact spared.trans (spares_parkPass pass before)
  · intro before spared
    exact spared.trans (spares_stepPass before)

theorem spares_perform {operation : Operation V σ} (apart : operation.concernsRendering = false)
    (onward : operation ≠ .reset) (system : Development V σ) :
    Spares system (operation.perform system).2 := by
  cases operation with
  | reset => exact absurd rfl onward
  | setRules rules =>
      rw [perform_setRules]
      exact spares_offerRules rules system
  | generate => exact spares_of_generates rfl system
  | generateMany => exact spares_of_generates rfl system
  | beginPass => exact spares_of_generates rfl system
  | stepPass => exact spares_of_generates rfl system
  | advancePass => exact spares_of_generates rfl system
  | bind => cases apart
  | unbind => cases apart
  | render => cases apart
  | beginRendering => cases apart
  | stepRendering => cases apart
  | advanceRendering => cases apart

end Operation

/-! ## Leaving out renderings -/

namespace Interaction

open Development

/-- What there is to see of interactions apart from renderings: the answers to
those that are not about renderings, each with the bare part that it leaves. -/
def observed : List (Interaction V σ) → Development V σ → List (Answer V × Development V Unit)
  | [], _ => []
  | interaction :: rest, system =>
      if interaction.concernsRendering then observed rest (interaction.respond system).2
      else
        ((interaction.respond system).1, (interaction.respond system).2.bare) ::
          observed rest (interaction.respond system).2

/-- The second list is the first one with some of the interactions about
renderings left out. -/
inductive Thinned : List (Interaction V σ) → List (Interaction V σ) → Prop where
  | nil : Thinned [] []
  | keep (interaction : Interaction V σ) {all kept : List (Interaction V σ)} :
      Thinned all kept → Thinned (interaction :: all) (interaction :: kept)
  | leaveOut {interaction : Interaction V σ} {all kept : List (Interaction V σ)}
      (concerns : interaction.concernsRendering = true) :
      Thinned all kept → Thinned (interaction :: all) kept

theorem bare_respond_of_concernsRendering {interaction : Interaction V σ}
    (concerns : interaction.concernsRendering = true) (system : Development V σ) :
    (interaction.respond system).2.bare = system.bare := by
  cases interaction with
  | perform operation => exact Operation.bare_perform_of_concernsRendering concerns system
  | ask question => rfl

theorem respond_agree {interaction : Interaction V σ}
    (apart : interaction.concernsRendering = false) {first second : Development V σ}
    (same : first.bare = second.bare) :
    (interaction.respond first).1 = (interaction.respond second).1 ∧
      (interaction.respond first).2.bare = (interaction.respond second).2.bare := by
  cases interaction with
  | perform operation =>
      rcases Operation.perform_agree apart same with ⟨told, alike⟩
      exact ⟨congrArg Answer.outcome told, alike⟩
  | ask question =>
      refine ⟨?_, same⟩
      cases question with
      | start => exact congrArg (fun bare => Answer.forest bare.start) same
      | dump style write =>
          have sameForest : first.current = second.current :=
            congrArg (fun bare => bare.current) same
          rw [respond, respond, Question.answer, Question.answer, sameForest]
      | isGenerating => exact congrArg (fun bare => Answer.verdict bare.isGenerating) same
      | isRendering => cases apart

/-- Two systems with the same bare part go on to look the same, even if only one
of them is rendered. -/
theorem observed_of_thinned {all kept : List (Interaction V σ)} (thinned : Thinned all kept)
    {first second : Development V σ} (same : first.bare = second.bare) :
    observed all first = observed kept second ∧
      (respondAll all first).bare = (respondAll kept second).bare := by
  induction thinned generalizing first second with
  | nil => exact ⟨rfl, same⟩
  | leaveOut concerns _ inductionHypothesis =>
      rw [observed, if_pos concerns]
      exact inductionHypothesis ((bare_respond_of_concernsRendering concerns first).trans same)
  | @keep interaction all kept _ inductionHypothesis =>
      rw [observed, observed]
      cases concerned : interaction.concernsRendering with
      | true =>
          apply inductionHypothesis
          rw [bare_respond_of_concernsRendering concerned,
            bare_respond_of_concernsRendering concerned, same]
      | false =>
          rcases respond_agree concerned same with ⟨told, alike⟩
          rcases inductionHypothesis alike with ⟨onward, final⟩
          refine ⟨?_, final⟩
          rw [if_neg Bool.false_ne_true, if_neg Bool.false_ne_true, told, alike, onward]

end Interaction

/-! ## Separation -/

namespace Development

open Interaction

/-- What it means that generating and rendering a system are separate. -/
structure Separated (system : Development V σ) : Prop where
  /-- Interactions about renderings can be left out of a history, and neither the
  other answers nor the system at any point show it, as far as the system does not
  belong to renderings itself. -/
  unnoticed : ∀ all kept, Thinned all kept →
    observed all system = observed kept system ∧
      (respondAll all system).bare = (respondAll kept system).bare
  /-- An interaction about renderings leaves the bare part as it was. -/
  untouched : ∀ interaction : Interaction V σ, interaction.concernsRendering = true →
    (interaction.respond system).2.bare = system.bare
  /-- As long as it completes no pass, an operation that generates or changes the
  rules leaves a rendering in progress and the generation below it as they were.
  The actions and the last report on a rendering stay in any case. -/
  spared : ∀ operation : Operation V σ, operation.concernsRendering = false →
    operation ≠ .reset → Spares system (operation.perform system).2
  /-- Every completed pass drops the rendering in progress, but not that report. -/
  completed : ∀ pass, (system.commit pass).generation = system.generation + 1 ∧
    (system.commit pass).rendering = none ∧
    (system.commit pass).lastRendering = system.lastRendering ∧
    (system.commit pass).actions = system.actions

/-- Generating and rendering are separate, in whatever state a system is. -/
theorem separated (system : Development V σ) : Separated system where
  unnoticed _ _ thinned := observed_of_thinned thinned rfl
  untouched _ concerns := bare_respond_of_concernsRendering concerns system
  spared _ apart onward := Operation.spares_perform apart onward system
  completed _ := ⟨rfl, rfl, rfl, rfl⟩

/-- A pass and a rendering of the same weed, step by step in turns. -/
def weedInTurns : List (Interaction Float Unit) :=
  [.perform .generate, .perform .beginRendering, .perform .beginPass, .perform .stepRendering,
    .perform (.advancePass 9), .perform .stepRendering, .ask .isGenerating]

/-- The pass alone. -/
def weedAlone : List (Interaction Float Unit) :=
  [.perform .generate, .perform .beginPass, .perform (.advancePass 9), .ask .isGenerating]

/-- The last step of the pass drops the rendering, so the next step of that is
refused.  Whoever only generates sees what there is to see without a rendering. -/
theorem weed_separated :
    (respondAll (weedInTurns.take 4) (weed [0.3])).isRendering = true ∧
      (respondAll (weedInTurns.take 5) (weed [0.3])).isRendering = false ∧
      observed weedInTurns (weed [0.3]) = observed weedAlone (weed [0.3]) := by
  have thinned : Thinned weedInTurns weedAlone :=
    .keep _ (.leaveOut rfl (.keep _ (.leaveOut rfl (.keep _ (.leaveOut rfl (.keep _ .nil))))))
  exact ⟨by decide, by decide, ((separated (weed [0.3])).unnoticed _ _ thinned).1⟩

end Development
end LSystem
