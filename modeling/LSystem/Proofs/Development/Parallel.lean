import LSystem.Proofs.Development.Stage
import LSystem.Proofs.Generation.Outlook

namespace LSystem

/-!
# Passes rewrite in parallel

A pass goes through its generation step by step, in portions that the host
chooses, and may be given other rules on the way.  All the same it comes to what
one look at the generation tells.  The outlook of a system says what its pass is
going to come to; a step keeps it as long as the rules are the ones that were
expected to be in force.
-/

variable {V σ : Type}

/-- The table that a schedule has in force when it takes a step.  Steps are
counted from the first one that the schedule takes. -/
def tableInForce (table : RuleTable V) : List (PassCall V) → Nat → RuleTable V
  | [], _ => table
  | .offer rules :: rest, step => tableInForce (table.revise rules) rest step
  | .take portion :: rest, step =>
      if step < portion.limit then table else tableInForce table rest (step - portion.limit)

theorem tableInForce_take_add (table : RuleTable V) (portion : Portion)
    (rest : List (PassCall V)) (step : Nat) :
    tableInForce table (.take portion :: rest) (portion.limit + step) =
      tableInForce table rest step := by
  have beyond : ¬ portion.limit + step < portion.limit := by omega
  rw [tableInForce.eq_def]
  dsimp only
  rw [if_neg beyond, Nat.add_sub_cancel_left]

/-- What the host is told about work that draws numbers. -/
def Drawing.reported {α : Type} (result : Except ConfigurationError α × Chance) :
    Except Fault α × Chance :=
  (result.1.mapError .configuration, result.2)

/-- A success that is reported was one. -/
theorem Drawing.eq_of_reported_eq_ok {α : Type} {result : Except ConfigurationError α × Chance}
    {value : α} {chance : Chance} (told : reported result = (.ok value, chance)) :
    result = (.ok value, chance) := by
  rcases result with ⟨error | made, after⟩
  · cases told
  · cases told
    rfl

namespace Development

/-! ## The outlook of a system -/

/-- The generation that the pass in progress is going to lead to, or the one
that has been reached. -/
def outlook (tables : Nat → RuleTable V) (system : Development V σ) :
    Except Fault (Forest V) × Chance :=
  match system.pass with
  | none => (.ok system.current, system.chance)
  | some pass => Drawing.reported ((pass.outlook tables system.ignore).outcome system.chance)

variable {tables : Nat → RuleTable V} {origin system after : Development V σ}

theorem outlook_of_parked {pass : Pass V} (parked : system.pass = some pass) :
    system.outlook tables =
      Drawing.reported ((pass.outlook tables system.ignore).outcome system.chance) := by
  unfold outlook
  rw [parked]

/-- Completing a finished pass does not change the outlook. -/
theorem outlook_parkPass (pass : Pass V) (system : Development V σ) :
    (system.parkPass pass).outlook tables =
      Drawing.reported ((pass.outlook tables system.ignore).outcome system.chance) := by
  cases ahead : pass.hasNext with
  | true => rw [parkPass_of_hasNext ahead, outlook_of_parked rfl]
  | false =>
      rw [parkPass_of_finished ahead, Pass.outlook_of_not_hasNext ahead, Drawing.outcome_pure]
      rfl

theorem outlook_beginPass (system : Development V σ) :
    system.beginPass.outlook tables =
      Drawing.reported
        ((system.current.nextGeneration tables system.ignore).outcome system.chance) := by
  unfold beginPass
  rw [outlook_parkPass, Pass.outlook_start]

/-! ## Steps -/

section Steps

variable {pass : Pass V} (parked : system.pass = some pass)
  (inForce : tables pass.tally.visited = system.rules)

include parked in
theorem visited_of_stepPass (running : system.isGenerating = true)
    (taken : system.stepPass = (.ok (), after)) {next : Pass V} (isNext : after.pass = some next) :
    next.tally.visited = pass.tally.visited + 1 := by
  rcases stepPass_eq_ok running taken with ⟨before, following, chance, isParked, step, rfl⟩
  cases parked.symm.trans isParked
  have visited := step.walks.2
  unfold parkPass at isNext
  split at isNext
  · cases isNext
    exact visited
  · cases isNext

include parked inForce in
theorem outlook_of_stepPass (running : system.isGenerating = true)
    (taken : system.stepPass = (.ok (), after)) :
    after.outlook tables = system.outlook tables := by
  rcases stepPass_eq_ok running taken with ⟨before, next, chance, isParked, step, rfl⟩
  cases parked.symm.trans isParked
  rw [← inForce] at step
  rw [outlook_parkPass, outlook_of_parked parked]
  exact congrArg Drawing.reported step.outlook_eq

include parked inForce in
theorem outlook_of_stepPass_error {fault : Fault} (running : system.isGenerating = true)
    (failed : system.stepPass = (.error fault, after)) :
    system.outlook tables = (.error fault, after.chance) := by
  rcases stepPass_eq_error running failed with
    ⟨before, error, chance, isParked, rfl, failure, rfl⟩
  cases parked.symm.trans isParked
  rw [← inForce] at failure
  rw [outlook_of_parked parked, failure.outlook_eq]
  rfl

end Steps

/-! ## Schedules -/

/-- What a system comes to agrees with what it was going to come to. -/
def MeetsOutlook {α : Type} (outlook : Except Fault (Forest V) × Chance)
    (tables : Nat → RuleTable V) : Except Fault α × Development V σ → Prop :=
  Settles (fun after => after.outlook tables = outlook)
    fun fault after => outlook = (.error fault, after.chance)

/-- What is known in the course of a chunk that is taken with the expected rules. -/
structure KeepsOutlook (tables : Nat → RuleTable V) (origin system : Development V σ)
    (pass : Pass V) (count : Nat) (after : Development V σ) : Prop where
  stage : Stage origin after
  rules_eq : after.rules = system.rules
  outlook_eq : after.outlook tables = system.outlook tables
  visited_eq : ∀ next, after.pass = some next → next.tally.visited = pass.tally.visited + count

theorem keepsOutlook_advancePass {limit : Nat} {pass : Pass V} (stage : Stage origin system)
    (parked : system.pass = some pass)
    (inForce : ∀ step, step < limit → tables (pass.tally.visited + step) = system.rules) :
    Runs (KeepsOutlook tables origin system pass) limit (system.advancePass limit) := by
  apply runs_advancePass
  · refine ⟨stage, rfl, rfl, ?_⟩
    intro next isNext
    cases parked.symm.trans isNext
    rfl
  · intro count before after within running taken keeps
    rcases keeps.stage.exists_parked running with ⟨now, isNow⟩
    have visited := keeps.visited_eq now isNow
    have expected : tables now.tally.visited = before.rules := by
      rw [visited, inForce count within, keeps.rules_eq]
    rcases keeps.stage.step running taken with ⟨stageAfter, rulesAfter⟩
    have outlookAfter := outlook_of_stepPass isNow expected running taken
    refine ⟨stageAfter, rulesAfter.trans keeps.rules_eq, outlookAfter.trans keeps.outlook_eq, ?_⟩
    intro next isNext
    rw [visited_of_stepPass isNow running taken isNext, visited, Nat.add_assoc]

theorem meetsOutlook_advancePass {limit : Nat} {pass : Pass V} (stage : Stage origin system)
    (parked : system.pass = some pass)
    (inForce : ∀ step, step < limit → tables (pass.tally.visited + step) = system.rules) :
    MeetsOutlook (system.outlook tables) tables (system.advancePass limit) := by
  have run := keepsOutlook_advancePass stage parked inForce
  rcases advanced : system.advancePass limit with ⟨fault | taken, after⟩
  · rw [advanced] at run
    rcases run with ⟨count, last, within, keeps, running, failed⟩
    rcases keeps.stage.exists_parked running with ⟨now, isNow⟩
    have expected : tables now.tally.visited = last.rules := by
      rw [keeps.visited_eq now isNow, inForce count within, keeps.rules_eq]
    exact keeps.outlook_eq.symm.trans (outlook_of_stepPass_error isNow expected running failed)
  · rw [advanced] at run
    exact run.outlook_eq

/-- If the expected tables are the ones that the schedule puts in force, what the
schedule comes to is what was to be expected. -/
theorem meetsOutlook_drive {calls : List (PassCall V)} (stage : Stage origin system)
    (inForce : ∀ pass, system.pass = some pass → ∀ step,
      tables (pass.tally.visited + step) = tableInForce system.rules calls step) :
    MeetsOutlook (system.outlook tables) tables (system.drive calls) := by
  induction calls generalizing system with
  | nil => exact rfl
  | cons call rest inductionHypothesis =>
      cases running : system.isGenerating with
      | true =>
          cases call with
          | offer rules =>
              rw [drive_offer running]
              have offered := inductionHypothesis (stage.offered running rules)
              rw [offerRules_eq] at offered ⊢
              exact offered inForce
          | take portion =>
              rcases stage.exists_parked running with ⟨pass, parked⟩
              have expected := inForce pass parked
              have within (step : Nat) (below : step < portion.limit) :
                  tables (pass.tally.visited + step) = system.rules :=
                (expected step).trans (if_pos below)
              have keeps := keepsOutlook_advancePass stage parked within
              have meets := meetsOutlook_advancePass stage parked within
              rw [drive_take running]
              rcases advanced : system.advancePass portion.limit with ⟨fault | taken, next⟩
              · rw [advanced] at meets
                exact meets
              · rw [advanced] at keeps
                have onward (now : Pass V) (isNow : next.pass = some now) (step : Nat) :
                    tables (now.tally.visited + step) = tableInForce next.rules rest step := by
                  -- A chunk that does not finish the pass takes all of its steps.
                  have whole : taken = portion.limit := by
                    have unfinished := keeps.stage.isGenerating_of_parked isNow
                    rw [isGenerating_iff] at unfinished
                    have counted := advancePass_eq_ok advanced
                    omega
                  rw [keeps.visited_eq now isNow, keeps.rules_eq, Nat.add_assoc, whole, expected,
                    tableInForce_take_add]
                have followed := (inductionHypothesis keeps.stage onward).map (taken :: ·)
                rw [keeps.outlook_eq] at followed
                exact followed
      | false =>
          rw [drive_of_idle running]
          rfl

/-! ## Whole passes -/

/-- What it means that a pass which has been begun with a system, and has come to
an outcome and to a system after it, has rewritten the generation in parallel. -/
structure RewritesInParallel {α : Type} (tables : Nat → RuleTable V)
    (system : Development V σ) (outcome : Except Fault α) (after : Development V σ) : Prop where
  /-- The new generation, or the error, is that of the rewriting of the old generation. -/
  rewritten :
    (outcome.map fun _ => after.current, after.chance) =
      Drawing.reported
        ((system.current.nextGeneration tables system.ignore).outcome system.chance)
  /-- A pass without errors has been completed. -/
  completed : ∀ answer, outcome = .ok answer → after.generation = system.generation + 1
  /-- It has made one draw at each site whose rule has to choose. -/
  drawn : ∀ answer, outcome = .ok answer →
    after.chance =
      system.chance.skip (system.current.allSites.countP (·.draws tables system.ignore))
  /-- At each site the draws of the earlier sites have been made, and no other. -/
  inOrder : ∀ answer, outcome = .ok answer →
    ∀ earlier site later, system.current.allSites = earlier ++ site :: later →
      ∃ fragment, (site.replacement tables system.ignore).outcome
          (system.chance.skip (earlier.countP (·.draws tables system.ignore))) =
        (.ok fragment,
          system.chance.skip ((earlier ++ [site]).countP (·.draws tables system.ignore)))
  /-- The sites are the leaves of the old generation, depth first. -/
  letters : system.current.allSites.map (·.letter) = Forest.leaves system.current
  /-- Each site is the place in the old generation where the walk meets the leaf. -/
  places : ∀ site ∈ system.current.allSites,
    Place.after system.current (site.step + 1) = some site.place
  /-- However often rules look around from there, they only find leaves of it. -/
  lookups : ∀ site ∈ system.current.allSites, ∀ directions direction letter,
    (((Cursor.on site.place).wander system.ignore directions).navigate
        system.ignore direction).1 = some letter →
      letter ∈ Forest.leaves system.current

theorem visited_of_beginPass {pass : Pass V} (parked : system.beginPass.pass = some pass) :
    pass.tally.visited = 0 := by
  unfold beginPass parkPass at parked
  split at parked
  · cases parked
    rfl
  · cases parked

/-- A pass that is begun is going to come to the next generation. -/
theorem meetsOutlook_drive_beginPass (system : Development V σ) (calls : List (PassCall V)) :
    MeetsOutlook
      (Drawing.reported ((system.current.nextGeneration (tableInForce system.rules calls)
        system.ignore).outcome system.chance))
      (tableInForce system.rules calls) (system.beginPass.drive calls) := by
  have inForce (pass : Pass V) (parked : system.beginPass.pass = some pass) (step : Nat) :
      tableInForce system.rules calls (pass.tally.visited + step) =
        tableInForce system.beginPass.rules calls step := by
    simp [visited_of_beginPass parked]
  rw [← outlook_beginPass]
  exact meetsOutlook_drive (.begun system) inForce

theorem nextGeneration_eq_ok {calls : List (PassCall V)} {counts : List Nat}
    (driven : system.beginPass.drive calls = (.ok counts, after))
    (finished : after.isGenerating = false) :
    (system.current.nextGeneration (tableInForce system.rules calls) system.ignore).outcome
      system.chance = (.ok after.current, after.chance) := by
  have meets := meetsOutlook_drive_beginPass system calls
  rw [driven] at meets
  rcases (stage_drive driven).of_idle finished with ⟨_, _, _, _, _, same⟩
  have completed : after.pass = none := by rw [same]; rfl
  have reached : after.outlook (tableInForce system.rules calls) =
      (.ok after.current, after.chance) := by
    unfold outlook
    rw [completed]
  exact Drawing.eq_of_reported_eq_ok (meets.symm.trans reached)

/-- Whatever the schedule, a pass that is carried through rewrites the generation
in parallel, every leaf with the table that is in force at its step. -/
theorem rewritesInParallel_of_finished (system : Development V σ) (calls : List (PassCall V))
    (finished : (system.beginPass.drive calls).2.isGenerating = false) :
    RewritesInParallel (tableInForce system.rules calls) system
      (system.beginPass.drive calls).1 (system.beginPass.drive calls).2 := by
  have letters := Forest.letters_sites [] [] 0 system.current
  have places (site : Site V) (member : site ∈ system.current.allSites) :
      Place.after system.current (site.step + 1) = some site.place :=
    Forest.after_of_mem_allSites member
  have lookups (site : Site V) (member : site ∈ system.current.allSites)
      (directions : List Direction) (direction : Direction) (letter : Module V)
      (found : (((Cursor.on site.place).wander system.ignore directions).navigate
        system.ignore direction).1 = some letter) : letter ∈ Forest.leaves system.current := by
    have inside : Cursor.LiesIn system.current (.on site.place) :=
      .of_place (Place.liesIn_of_after (places site member))
    exact ((inside.wander system.ignore directions).navigate system.ignore direction).2 letter found
  rcases driven : system.beginPass.drive calls with ⟨fault | counts, after⟩
  · have failed := meetsOutlook_drive_beginPass system calls
    rw [driven] at failed
    exact ⟨failed.symm, nofun, nofun, nofun, letters, places, lookups⟩
  · rw [driven] at finished
    have rewritten := nextGeneration_eq_ok driven finished
    have inTurn := Forest.replaceAll_of_nextGeneration rewritten
    refine ⟨?_, ?_, ?_, ?_, letters, places, lookups⟩
    · rw [rewritten]
      rfl
    · intro answer carried
      rcases (stage_drive driven).of_idle finished with ⟨_, _, _, _, _, same⟩
      dsimp only
      rw [same]
      rfl
    · intro answer carried
      exact Site.chance_of_replaceAll inTurn
    · intro answer carried earlier site later split
      rw [split] at inTurn
      exact Site.replacement_of_replaceAll inTurn

/-- A weed that is given the rules of another plant in the middle of a pass. -/
theorem weed_rewritesInParallel :
    ((weed [0.3]).generate.2.beginPass.drive
          [.take (.chunk 3), .offer Catalog.koch.rules, .take .step,
            .take (.chunk 9)]).2.isGenerating = false ∧
    RewritesInParallel
      (tableInForce (weed [0.3]).generate.2.rules
        [.take (.chunk 3), .offer Catalog.koch.rules, .take .step, .take (.chunk 9)])
      (weed [0.3]).generate.2
      ((weed [0.3]).generate.2.beginPass.drive
        [.take (.chunk 3), .offer Catalog.koch.rules, .take .step, .take (.chunk 9)]).1
      ((weed [0.3]).generate.2.beginPass.drive
        [.take (.chunk 3), .offer Catalog.koch.rules, .take .step, .take (.chunk 9)]).2 :=
  ⟨by decide, rewritesInParallel_of_finished _ _ (by decide)⟩

end Development
end LSystem
