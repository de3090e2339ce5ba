import LSystem.Proofs.Development.Parallel

namespace LSystem

/-!
# Passes are atomic

A pass either is carried through or leaves no trace but the draws it has made.
It does not matter where it stops, how it had got there, or whether it stops
because a rule turns out to be unusable or because the host begins anew.
-/

variable {V σ : Type}

/-! ## Refused rules -/

/-- Rules that are refused put no other table in force. -/
theorem RuleTable.revise_of_error {rules : List (Rule V)} {error : ConfigurationError}
    (refused : ofRules rules = .error error) (table : RuleTable V) :
    table.revise rules = table := by
  unfold revise
  rw [refused]

theorem tableInForce_refused {rules : List (Rule V)} {error : ConfigurationError}
    (refused : RuleTable.ofRules rules = .error error) (table : RuleTable V)
    (earlier later : List (PassCall V)) :
    tableInForce table (earlier ++ .offer rules :: later) =
      tableInForce table (earlier ++ later) := by
  funext step
  induction earlier generalizing table step with
  | nil =>
      rw [List.nil_append, tableInForce, RuleTable.revise_of_error refused]
      rfl
  | cons call rest inductionHypothesis =>
      cases call with
      | offer others => exact inductionHypothesis (table.revise others) step
      | take portion =>
          rw [List.cons_append, List.cons_append, tableInForce, tableInForce]
          split
          · rfl
          · exact inductionHypothesis table (step - portion.limit)

/-- The table that the offers among some calls leave in force. -/
def tableAfter (table : RuleTable V) : List (PassCall V) → RuleTable V
  | [] => table
  | .take _ :: rest => tableAfter table rest
  | .offer rules :: rest => tableAfter (table.revise rules) rest

theorem tableAfter_of_refused {calls : List (PassCall V)}
    (refused : ∀ rules, .offer rules ∈ calls → ∃ error, RuleTable.ofRules rules = .error error)
    (table : RuleTable V) : tableAfter table calls = table := by
  induction calls with
  | nil => rfl
  | cons call rest inductionHypothesis =>
      have onward : tableAfter table rest = table := by
        apply inductionHypothesis
        intro rules member
        exact refused rules (List.mem_cons_of_mem call member)
      cases call with
      | take portion => exact onward
      | offer rules =>
          rcases refused rules List.mem_cons_self with ⟨error, isError⟩
          rw [tableAfter, RuleTable.revise_of_error isError]
          exact onward

namespace Development

theorem drive_refused {rules : List (Rule V)} {error : ConfigurationError}
    (refused : RuleTable.ofRules rules = .error error) (system : Development V σ)
    (earlier later : List (PassCall V)) :
    system.drive (earlier ++ .offer rules :: later) = system.drive (earlier ++ later) := by
  induction earlier generalizing system with
  | nil =>
      cases running : system.isGenerating with
      | true =>
          rw [List.nil_append, drive_offer running, offerRules_eq,
            RuleTable.revise_of_error refused]
          rfl
      | false => rw [drive_of_idle running, drive_of_idle running]
  | cons call rest inductionHypothesis =>
      rw [List.cons_append, List.cons_append]
      cases running : system.isGenerating with
      | true =>
          cases call with
          | offer others =>
              rw [drive_offer running, drive_offer running]
              exact inductionHypothesis (system.offerRules others)
          | take portion =>
              rw [drive_take running, drive_take running]
              rcases system.advancePass portion.limit with ⟨fault | taken, after⟩
              · rfl
              · dsimp only
                rw [inductionHypothesis after]
      | false => rw [drive_of_idle running, drive_of_idle running]

/-! ## Rules that stay in force -/

theorem rules_stepPass {system : Development V σ} (running : system.isGenerating = true) :
    system.stepPass.2.rules = system.rules := by
  rcases stepped : system.stepPass with ⟨fault | ⟨⟩, after⟩
  · rcases stepPass_eq_error running stepped with ⟨_, _, _, _, _, _, rfl⟩
    rfl
  · rcases stepPass_eq_ok running stepped with ⟨_, next, _, _, _, rfl⟩
    exact rules_parkPass next _

theorem rules_advancePass (limit : Nat) (system : Development V σ) :
    (system.advancePass limit).2.rules = system.rules := by
  apply advancePass_keeps (motive := fun after => after.rules = system.rules)
  · rfl
  · intro before running same
    exact (rules_stepPass running).trans same

/-- The rules are those that the host has put in place last, up to the call at
which the pass has stopped. -/
theorem rules_drive (calls : List (PassCall V)) (system : Development V σ) :
    ∃ made later, calls = made ++ later ∧
      (system.drive calls).2.rules = tableAfter system.rules made := by
  induction calls generalizing system with
  | nil => exact ⟨[], [], rfl, rfl⟩
  | cons call rest inductionHypothesis =>
      cases running : system.isGenerating with
      | true =>
          cases call with
          | offer rules =>
              rcases inductionHypothesis (system.offerRules rules) with ⟨made, later, rfl, same⟩
              refine ⟨.offer rules :: made, later, rfl, ?_⟩
              rw [drive_offer running, same, offerRules_eq]
              rfl
          | take portion =>
              have kept := rules_advancePass portion.limit system
              rw [drive_take running]
              rcases advanced : system.advancePass portion.limit with ⟨fault | taken, after⟩
              · rw [advanced] at kept
                exact ⟨[.take portion], rest, rfl, kept⟩
              · rw [advanced] at kept
                rcases inductionHypothesis after with ⟨made, later, rfl, same⟩
                refine ⟨.take portion :: made, later, rfl, same.trans ?_⟩
                exact congrArg (tableAfter · made) kept
      | false =>
          rw [drive_of_idle running]
          exact ⟨[], call :: rest, rfl, rfl⟩

theorem rules_drive_of_refused {calls : List (PassCall V)}
    (refused : ∀ rules, .offer rules ∈ calls → ∃ error, RuleTable.ofRules rules = .error error)
    (system : Development V σ) : (system.drive calls).2.rules = system.rules := by
  rcases rules_drive calls system with ⟨made, later, rfl, same⟩
  rw [same]
  apply tableAfter_of_refused
  intro rules member
  exact refused rules (List.mem_append_left later member)

/-! ## Beginning again -/

/-- A pass that is begun anew starts from the same generation. -/
theorem beginPass_of_isGenerating {system after : Development V σ} {calls : List (PassCall V)}
    {counts : List Nat} (driven : system.beginPass.drive calls = (.ok counts, after))
    (running : after.isGenerating = true) :
    after.beginPass =
      { system with
        rules := after.rules
        chance := after.chance
        pass := some (.start system.current) } := by
  rcases (stage_drive driven).of_isGenerating running with ⟨pass, chance, ahead, tracks, _, same⟩
  have unvisited : (Pass.start system.current).tally.visited = 0 := rfl
  have nonempty : (Pass.start system.current).hasNext = true := by
    rw [tracks.hasNext_iff] at ahead
    rw [(Pass.tracks_start system.current).hasNext_iff, unvisited]
    omega
  rw [same]
  exact parkPass_of_hasNext nonempty _

/-! ## Several passes -/

theorem generate_eq_error {system after : Development V σ} {fault : Fault}
    (failed : system.generate = (.error fault, after)) :
    (∃ error, fault = .configuration error) ∧ system.chance.LeadsTo after.chance ∧
      after = { system with chance := after.chance, pass := none } := by
  have unchanged : system.generate.2.rules = system.rules :=
    (rules_advancePass (Forest.size system.current) system.beginPass).trans
      (rules_beginPass system)
  rw [failed] at unchanged
  rw [← generate_eq_drive] at failed
  rcases drive_eq_error (eq_error_of_map failed) with ⟨isConfiguration, draws, same⟩
  dsimp only at unchanged
  rw [unchanged] at same
  exact ⟨isConfiguration, draws, same⟩

theorem generation_of_generate {system after : Development V σ}
    (generated : system.generate = (.ok (), after)) : after.generation = system.generation + 1 := by
  have ended := system.isGenerating_generate
  rw [generated] at ended
  rw [← generate_eq_drive] at generated
  rcases driven : system.beginPass.drive [.take (.chunk (Forest.size system.current))] with
    ⟨error | counts, final⟩
  · rw [driven] at generated
    cases generated
  · rw [driven] at generated
    cases generated
    rcases (stage_drive driven).of_idle ended with ⟨pass, chance, _, _, _, same⟩
    rw [same]
    rfl

/-- Several passes fail when one of them does, after the ones before it have been
completed. -/
theorem generateMany_eq_error {passes : Nat} {system after : Development V σ} {fault : Fault}
    (failed : system.generateMany passes = (.error fault, after)) :
    ∃ made reached, made < passes ∧ system.generateMany made = (.ok (), reached) ∧
      reached.generation = system.generation + made ∧
      reached.generate = (.error fault, after) := by
  induction passes generalizing system with
  | zero => cases failed
  | succ passes inductionHypothesis =>
      rw [generateMany] at failed
      rcases generated : system.generate with ⟨first | ⟨⟩, next⟩
      · rw [generated] at failed
        cases failed
        exact ⟨0, system, Nat.zero_lt_succ passes, rfl, rfl, generated⟩
      · rw [generated] at failed
        rcases inductionHypothesis failed with ⟨made, reached, fewer, onward, counted, failing⟩
        refine ⟨made + 1, reached, Nat.succ_lt_succ fewer, ?_, ?_, failing⟩
        · rw [generateMany, generated]
          exact onward
        · rw [counted, generation_of_generate generated]
          omega

/-! ## Atomicity -/

/-- What it means that the passes of a system are atomic. -/
structure PassesAreAtomic (system : Development V σ) : Prop where
  /-- A pass that fails at any point leaves the system as it was when the pass was
  begun, except that no pass is in progress, that the source of chance may have
  moved on, and that the host may have put other rules in place. -/
  failed : ∀ calls fault after, system.beginPass.drive calls = (.error fault, after) →
    (∃ error, fault = .configuration error) ∧ system.chance.LeadsTo after.chance ∧
      after = { system with rules := after.rules, chance := after.chance, pass := none }
  /-- The same holds at any point where the host gives up the pass by beginning
  another one, which then is a pass over the same generation. -/
  abandoned : ∀ calls counts after, system.beginPass.drive calls = (.ok counts, after) →
    after.isGenerating = true →
    system.chance.LeadsTo after.chance ∧
      after = { system with rules := after.rules, chance := after.chance, pass := after.pass } ∧
      after.beginPass =
        { system with
          rules := after.rules
          chance := after.chance
          pass := some (.start system.current) }
  /-- The rules are those of the last offer that has been accepted on the way. -/
  rules : ∀ calls, ∃ made later, calls = made ++ later ∧
    (system.beginPass.drive calls).2.rules = tableAfter system.rules made
  /-- Without such an offer they are the same as well. -/
  sameRules : ∀ calls : List (PassCall V),
    (∀ rules, .offer rules ∈ calls → ∃ error, RuleTable.ofRules rules = .error error) →
    (system.beginPass.drive calls).2.rules = system.rules
  /-- Several passes that fail leave the system as the completed ones have made it. -/
  several : ∀ passes fault after, system.generateMany passes = (.error fault, after) →
    ∃ made reached, made < passes ∧ system.generateMany made = (.ok (), reached) ∧
      reached.generation = system.generation + made ∧
      reached.generate = (.error fault, after) ∧
      (∃ error, fault = .configuration error) ∧ reached.chance.LeadsTo after.chance ∧
      after = { reached with chance := after.chance, pass := none }
  /-- Rules that are refused change nothing, neither at once nor for the rest of a
  pass, which goes on with the table that was in force. -/
  refused : ∀ rules error, RuleTable.ofRules rules = .error error →
    system.setRules rules = .error error ∧ system.offerRules rules = system ∧
      ∀ earlier later,
        system.beginPass.drive (earlier ++ .offer rules :: later) =
            system.beginPass.drive (earlier ++ later) ∧
          tableInForce system.rules (earlier ++ .offer rules :: later) =
            tableInForce system.rules (earlier ++ later)

theorem passesAreAtomic (system : Development V σ) : PassesAreAtomic system where
  failed _ _ _ stopped := drive_eq_error stopped
  abandoned _ _ _ driven running := by
    rcases drive_eq_ok_of_isGenerating driven running with ⟨draws, unchanged⟩
    exact ⟨draws, unchanged, beginPass_of_isGenerating driven running⟩
  rules calls := by
    have followed := rules_drive calls system.beginPass
    rwa [rules_beginPass] at followed
  sameRules _ refused :=
    (rules_drive_of_refused refused system.beginPass).trans (rules_beginPass system)
  several _ _ _ stopped := by
    rcases generateMany_eq_error stopped with ⟨made, reached, fewer, onward, counted, failing⟩
    exact ⟨made, reached, fewer, onward, counted, failing, generate_eq_error failing⟩
  refused rules error isError := by
    have unset : system.setRules rules = .error error := by
      unfold setRules
      rw [isError]
      rfl
    refine ⟨unset, offerRules_of_setRules_error unset, ?_⟩
    intro earlier later
    constructor
    · exact drive_refused isError system.beginPass earlier later
    · exact tableInForce_refused isError system.rules earlier later

/-- A weed whose second pass fails, after rules without a predecessor have been
refused in the middle of it. -/
theorem weed_passesAreAtomic :
    ((weed [0.3, 0.3, 1.0]).generate.2.beginPass.drive
        [.take (.chunk 2), .offer [⟨[], none, []⟩], .take (.chunk 9)]).1.isOk = false ∧
      ((weed [0.3, 0.3, 1.0]).generateMany 5).1.isOk = false ∧
      PassesAreAtomic (weed [0.3, 0.3, 1.0]) ∧
      PassesAreAtomic (weed [0.3, 0.3, 1.0]).generate.2 :=
  ⟨by decide, by decide, passesAreAtomic _, passesAreAtomic _⟩

end Development
end LSystem
