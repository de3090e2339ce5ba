import LSystem.Proofs.Development.Separation

namespace LSystem

/-!
# Renewal

A reset takes a system back to its start.  What it keeps are the things that the
host has provided: the rules and the actions in force, and the source of chance
as far as it has been used.  Main statement: a system that has been reset is the
one that would be set up anew with these, so nothing that happens later, whatever
it is, depends on anything else that has happened before.
-/

variable {V σ : Type}

namespace Development

/-! ## What stays of the setup -/

/-- Another system that was set up the same way, where the source of chance may have
moved on. -/
structure SameSetup (before after : Development V σ) : Prop where
  start : after.start = before.start
  ignore : after.ignore = before.ignore
  rules : after.rules = before.rules
  chance : before.chance.LeadsTo after.chance

namespace SameSetup

theorem refl (system : Development V σ) : SameSetup system system :=
  ⟨rfl, rfl, rfl, .refl system.chance⟩

theorem trans {first second third : Development V σ} (earlier : SameSetup first second)
    (later : SameSetup second third) : SameSetup first third where
  start := later.start.trans earlier.start
  ignore := later.ignore.trans earlier.ignore
  rules := later.rules.trans earlier.rules
  chance := earlier.chance.trans later.chance

theorem of_bare {before after : Development V σ} (same : after.bare = before.bare) :
    SameSetup before after where
  start := congrArg (fun bare => bare.start) same
  ignore := congrArg (fun bare => bare.ignore) same
  rules := congrArg (fun bare => bare.rules) same
  chance := by
    have unmoved : after.chance = before.chance := congrArg (fun bare => bare.chance) same
    rw [unmoved]
    exact .refl before.chance

theorem of_concernsRendering {operation : Operation V σ}
    (concerns : operation.concernsRendering = true) (system : Development V σ) :
    SameSetup system (operation.perform system).2 :=
  .of_bare (Operation.bare_perform_of_concernsRendering concerns system)

end SameSetup

theorem sameSetup_parkPass (pass : Pass V) (system : Development V σ) :
    SameSetup system (system.parkPass pass) := by
  unfold parkPass
  split
  · exact { SameSetup.refl system with }
  · exact { SameSetup.refl system with }

theorem sameSetup_stepPass (system : Development V σ) :
    SameSetup system system.stepPass.2 := by
  cases running : system.isGenerating with
  | true =>
      rcases stepped : system.stepPass with ⟨fault | ⟨⟩, after⟩
      · rcases stepPass_eq_error running stepped with ⟨_, _, chance, _, _, failure, rfl⟩
        exact ⟨rfl, rfl, rfl, failure.leadsTo⟩
      · rcases stepPass_eq_ok running stepped with ⟨_, next, chance, _, step, rfl⟩
        have drawn : SameSetup system { system with chance } := ⟨rfl, rfl, rfl, step.leadsTo⟩
        exact drawn.trans (sameSetup_parkPass next _)
  | false =>
      rcases stepPass_of_not_isGenerating running with ⟨violation, pass, stepped⟩
      rw [stepped]
      exact { SameSetup.refl system with }

theorem sameSetup_of_generates {operation : Operation V σ}
    (generates : operation.generates = true) (system : Development V σ) :
    SameSetup system (operation.perform system).2 := by
  apply Operation.perform_keeps_of_generates generates (SameSetup.refl system)
  · intro pass before same
    exact same.trans (sameSetup_parkPass pass before)
  · intro before same
    exact same.trans (sameSetup_stepPass before)

end Development

/-! ## The rules in force -/

/-- The rules that an interaction leaves in force.  Faulty ones are refused. -/
def Interaction.accept (rules : List (Rule V)) : Interaction V σ → List (Rule V)
  | perform (.setRules others) => if (RuleTable.ofRules others).isOk then others else rules
  | _ => rules

/-- The rules that a history leaves in force: the last ones that were accepted. -/
def rulesInForce (rules : List (Rule V)) (history : List (Interaction V σ)) : List (Rule V) :=
  history.foldl Interaction.accept rules

namespace Development

/-- What a system keeps being that was set up with a start, rules, symbols to ignore
and a source of chance. -/
structure SetUpWith (start : Forest V) (rules : List (Rule V)) (ignore : List Symbol)
    (chance : Chance) (system : Development V σ) : Prop where
  start_eq : system.start = start
  nonempty : start.isEmpty = false
  compiled : RuleTable.ofRules rules = .ok system.rules
  ignore_eq : system.ignore = ignore
  draws : chance.LeadsTo system.chance

namespace SetUpWith

variable {start : Forest V} {rules : List (Rule V)} {ignore : List Symbol} {chance : Chance}
  {system after : Development V σ}

theorem of_create {actions : Actions V σ} {host : σ}
    (created : create start rules ignore actions host chance = .ok system) :
    SetUpWith start rules ignore chance system := by
  rcases create_eq_ok created with ⟨nonempty, table, compiled, rfl⟩
  exact ⟨rfl, List.isEmpty_eq_false_iff.mpr nonempty, compiled, rfl, .refl chance⟩

theorem of_sameSetup (setUp : SetUpWith start rules ignore chance system)
    (same : SameSetup system after) : SetUpWith start rules ignore chance after where
  start_eq := same.start.trans setUp.start_eq
  nonempty := setUp.nonempty
  compiled := by rw [setUp.compiled, same.rules]
  ignore_eq := same.ignore.trans setUp.ignore_eq
  draws := setUp.draws.trans same.chance

theorem offerRules (setUp : SetUpWith start rules ignore chance system)
    (others : List (Rule V)) :
    SetUpWith start (if (RuleTable.ofRules others).isOk then others else rules) ignore chance
      (system.offerRules others) := by
  rw [offerRules_eq]
  unfold RuleTable.revise
  rcases accepted : RuleTable.ofRules others with error | table
  · exact { setUp with }
  · exact { setUp with compiled := accepted }

/-- Whatever a host does, a change of rules is the only change of the setup. -/
theorem respond (setUp : SetUpWith start rules ignore chance system)
    (interaction : Interaction V σ) :
    SetUpWith start (interaction.accept rules) ignore chance (interaction.respond system).2 := by
  cases interaction with
  | ask => exact setUp
  | perform operation =>
      cases operation with
      | setRules others =>
          have offered := setUp.offerRules others
          rw [← Operation.perform_setRules] at offered
          exact offered
      | reset => exact setUp.of_sameSetup ⟨rfl, rfl, rfl, .refl system.chance⟩
      | generate => exact setUp.of_sameSetup (sameSetup_of_generates rfl system)
      | generateMany => exact setUp.of_sameSetup (sameSetup_of_generates rfl system)
      | beginPass => exact setUp.of_sameSetup (sameSetup_of_generates rfl system)
      | stepPass => exact setUp.of_sameSetup (sameSetup_of_generates rfl system)
      | advancePass => exact setUp.of_sameSetup (sameSetup_of_generates rfl system)
      | bind => exact setUp.of_sameSetup (.of_bare rfl)
      | unbind => exact setUp.of_sameSetup (.of_bare rfl)
      | render => exact setUp.of_sameSetup (.of_concernsRendering rfl system)
      | beginRendering => exact setUp.of_sameSetup (.of_concernsRendering rfl system)
      | stepRendering => exact setUp.of_sameSetup (.of_concernsRendering rfl system)
      | advanceRendering => exact setUp.of_sameSetup (.of_concernsRendering rfl system)

theorem respondAll (setUp : SetUpWith start rules ignore chance system)
    (history : List (Interaction V σ)) :
    SetUpWith start (rulesInForce rules history) ignore chance
      (Interaction.respondAll history system) := by
  induction history generalizing rules system with
  | nil => exact setUp
  | cons interaction rest inductionHypothesis =>
      exact inductionHypothesis (setUp.respond interaction)

/-- A reset leaves what a new setup with the same things would leave. -/
theorem create_eq_reset (setUp : SetUpWith start rules ignore chance system) :
    create start rules ignore system.actions system.host system.chance = .ok system.reset := by
  unfold create reset
  rw [setUp.nonempty, setUp.compiled, setUp.start_eq, setUp.ignore_eq]
  rfl

end SetUpWith

/-! ## Renewal -/

open Interaction

/-- What it means that a reset makes a system forget whatever has happened to it but
the rules that are in force. -/
structure Renews (start : Forest V) (rules : List (Rule V)) (ignore : List Symbol)
    (chance : Chance) (left : Development V σ) : Prop where
  /-- A system can be set up anew with these rules and with what the host has by then:
  its actions, its own state and its source of chance.  From a reset on there is no
  difference between the two, whatever a host does and asks. -/
  rebuilt : ∃ rebuilt,
    create start rules ignore left.actions left.host left.chance = .ok rebuilt ∧
      rebuilt.rules = left.rules ∧
      ∀ later, transcript (.perform .reset :: later) left =
        (.outcome (.ok none), rebuilt) :: transcript later rebuilt
  /-- The source of chance is the one that the host has provided at first, and it does
  not go back. -/
  draws : chance.LeadsTo left.chance

/-- Whatever has been done with a system, a reset renews it. -/
theorem renews_respondAll {start : Forest V} {rules : List (Rule V)} {ignore : List Symbol}
    {actions : Actions V σ} {host : σ} {chance : Chance} {first : Development V σ}
    (created : create start rules ignore actions host chance = .ok first)
    (history : List (Interaction V σ)) :
    Renews start (rulesInForce rules history) ignore chance (respondAll history first) := by
  have setUp := (SetUpWith.of_create created).respondAll history
  constructor
  · refine ⟨(respondAll history first).reset, setUp.create_eq_reset, rfl, ?_⟩
    intro later
    rfl
  · exact setUp.draws

/-! ## A weed -/

theorem create_weed (script : List Float) :
    create Catalog.weed.start Catalog.weed.rules Catalog.weed.ignore .empty ()
      (.scripted script) = .ok (weed script) := by
  have accepted : (RuleTable.ofRules Catalog.weed.rules).isOk = true := by decide
  rcases compiled : RuleTable.ofRules Catalog.weed.rules with error | table
  · rw [compiled] at accepted
    cases accepted
  · rw [weed, offerRules_eq, create, RuleTable.revise, compiled]
    rfl

/-- A rendering and a pass are begun over the second generation of a weed, and rules
are changed on the way, once for others and once in vain. -/
def weedHistory : List (Interaction Float Unit) :=
  [.perform .generate, .perform .beginRendering, .perform .stepRendering, .perform .beginPass,
    .perform (.setRules Catalog.koch.rules), .perform (.advancePass 2),
    .perform (.setRules [⟨[], none, []⟩])]

theorem weed_renews :
    (respondAll weedHistory (weed [0.3])).isGenerating = true ∧
      (respondAll weedHistory (weed [0.3])).isRendering = true ∧
      (respondAll weedHistory (weed [0.3])).generation = 1 ∧
      create Catalog.weed.start Catalog.weed.rules Catalog.weed.ignore .empty ()
        (.scripted [0.3]) = .ok (weed [0.3]) ∧
      Renews Catalog.weed.start (rulesInForce Catalog.weed.rules weedHistory)
        Catalog.weed.ignore (.scripted [0.3]) (respondAll weedHistory (weed [0.3])) :=
  ⟨by decide, by decide, by decide, create_weed [0.3],
    renews_respondAll (create_weed [0.3]) weedHistory⟩

end Development
end LSystem
