import LSystem.Demo.Catalog
import LSystem.Proofs.Development.Atomicity
import LSystem.Proofs.Generation.Renaming

namespace LSystem

/-!
# Systems under other names

The only name that means anything to a pass is that of the inert symbol.  Main statement:
when the symbols of a start, of its rules and of the ignored ones are renamed together, the
system develops as before under the new names, pass by pass, with the same draws, reports
and errors.  Brackets may be among the symbols that get or lose their names, so explicit
brackets are modules like any others to matching and rewriting, and bound no branch.
-/

variable {V σ : Type}

namespace Development

/-- The same system under new names, with a table for the renamed rules. -/
def renamed (names : Renaming) (table : RuleTable V) (system : Development V σ) :
    Development V σ :=
  { system with
    start := system.start.renamed names
    rules := table
    ignore := system.ignore.map names.apply
    current := system.current.renamed names
    pass := system.pass.map (·.renamed names)
    rendering := system.rendering.map fun rendering =>
      { rendering with cursor := rendering.cursor.renamed names } }

section Passes

variable {names : Renaming} {other : RuleTable V}

theorem isGenerating_renamed (names : Renaming) (other : RuleTable V)
    (system : Development V σ) :
    (system.renamed names other).isGenerating = system.isGenerating := by
  rw [isGenerating, isGenerating, renamed]
  rcases system.pass with _ | pass
  · rfl
  · exact Pass.hasNext_renamed names pass

theorem parkPass_renamed (pass : Pass V) (system : Development V σ) :
    (system.renamed names other).parkPass (pass.renamed names) =
      (system.parkPass pass).renamed names other := by
  rw [parkPass, parkPass, Pass.hasNext_renamed]
  split
  · rfl
  · rw [commit, commit, renamed, renamed, ← Draft.forest_renamed]
    rfl

theorem beginPass_renamed (system : Development V σ) :
    (system.renamed names other).beginPass = system.beginPass.renamed names other := by
  have start : Pass.start (system.renamed names other).current =
      (Pass.start system.current).renamed names := (Pass.renamed_start names system.current).symm
  rw [beginPass, start]
  exact parkPass_renamed (Pass.start system.current) system

variable {table : RuleTable V} (renames : table.Renames names other)

include renames

theorem stepPass_renamed {system : Development V σ} (inForce : system.rules = table) :
    (system.renamed names other).stepPass =
      (system.stepPass.1, system.stepPass.2.renamed names other) := by
  rcases parked : system.pass with _ | pass
  · have idle : (system.renamed names other).pass = none := by
      rw [renamed, parked, Option.map_none]
    rw [stepPass, stepPass, parked, idle]
  · have going : (system.renamed names other).pass = some (pass.renamed names) := by
      rw [renamed, parked, Option.map_some]
    have stepped := Pass.step_renamed renames system.ignore system.chance pass
    rw [← inForce] at stepped
    rw [stepPass, stepPass, parked, going]
    dsimp only [renamed]
    rw [stepped]
    rcases pass.step system.rules system.ignore system.chance with ⟨fault | next, chance⟩
    · rfl
    · exact congrArg (Prod.mk _) (parkPass_renamed next { system with chance })

theorem advancePassFrom_renamed {system : Development V σ} (inForce : system.rules = table)
    (taken limit : Nat) :
    advancePassFrom taken limit (system.renamed names other) =
      ((advancePassFrom taken limit system).1,
        (advancePassFrom taken limit system).2.renamed names other) := by
  induction limit generalizing taken system with
  | zero => rfl
  | succ limit inductionHypothesis =>
      have going := isGenerating_renamed names other system
      cases running : system.isGenerating with
      | false =>
          rw [running] at going
          rw [advancePassFrom_of_idle running, advancePassFrom_of_idle going]
      | true =>
          rw [running] at going
          have kept := rules_stepPass running
          rw [advancePassFrom_succ running, advancePassFrom_succ going,
            stepPass_renamed renames inForce]
          rcases stepped : system.stepPass with ⟨fault | ⟨⟩, after⟩
          · rfl
          · rw [stepped] at kept
            exact inductionHypothesis (kept.trans inForce) (taken + 1)

theorem generate_renamed {system : Development V σ} (inForce : system.rules = table) :
    (system.renamed names other).generate =
      (system.generate.1, system.generate.2.renamed names other) := by
  have begun : system.beginPass.rules = table := (rules_beginPass system).trans inForce
  have size : Forest.size (system.renamed names other).current = Forest.size system.current :=
    Forest.size_renamed names system.current
  rw [generate_eq, generate_eq, size, beginPass_renamed, advancePass, advancePass,
    advancePassFrom_renamed renames begun]

/-- Any number of passes makes the renamed generation, and fails where it has failed. -/
theorem generateMany_renamed {system : Development V σ} (inForce : system.rules = table)
    (passes : Nat) :
    generateMany passes (system.renamed names other) =
      ((generateMany passes system).1, (generateMany passes system).2.renamed names other) := by
  induction passes generalizing system with
  | zero => rfl
  | succ passes inductionHypothesis =>
      have kept : system.generate.2.rules = system.rules :=
        (rules_advancePass _ system.beginPass).trans (rules_beginPass system)
      rw [generateMany, generateMany, generate_renamed renames inForce]
      rcases generated : system.generate with ⟨fault | ⟨⟩, after⟩
      · rfl
      · rw [generated] at kept
        exact inductionHypothesis (kept.trans inForce)

end Passes

/-! ## From the start on -/

/-- What it means that a system, after a number of passes, is what another one is under
new names. -/
structure DevelopsAlike (names : Renaming) (passes : Nat) (system other : Development V σ) :
    Prop where
  /-- All passes are completed on both sides, or fail with the same error. -/
  outcome : (other.generateMany passes).1 = (system.generateMany passes).1
  current : (other.generateMany passes).2.current =
    (system.generateMany passes).2.current.renamed names
  /-- The report on the last pass agrees in all its numbers. -/
  lastPass : (other.generateMany passes).2.lastPass = (system.generateMany passes).2.lastPass
  generation : (other.generateMany passes).2.generation =
    (system.generateMany passes).2.generation
  moduleCount : (other.generateMany passes).2.moduleCount =
    (system.generateMany passes).2.moduleCount
  /-- As many numbers have been drawn from the same source. -/
  chance : (other.generateMany passes).2.chance = (system.generateMany passes).2.chance

/-- A system is set up under new names, or refused with the complaint about the new name,
as it was under the old ones, and it develops alike for any number of passes. -/
theorem developsAlike_renamed (names : Renaming) (start : Forest V) (rules : List (Rule V))
    (ignore : List Symbol) (actions : Actions V σ) (host : σ) (chance : Chance) :
    match create start rules ignore actions host chance with
    | .error error =>
        create (start.renamed names) (rules.map (·.renamed names)) (ignore.map names.apply)
          actions host chance = .error (error.renamed names)
    | .ok first =>
        ∃ other,
          create (start.renamed names) (rules.map (·.renamed names)) (ignore.map names.apply)
            actions host chance = .ok other ∧
          ∀ passes, DevelopsAlike names passes first other := by
  have empty : (start.renamed names).isEmpty = start.isEmpty := by
    rw [Forest.renamed_eq_map, List.isEmpty_map]
  have compiled := RuleTable.ofRules_renamed names rules
  rw [create, create, empty]
  by_cases nothing : start.isEmpty = true
  · rw [if_pos nothing, if_pos nothing]
    rfl
  · rw [if_neg nothing, if_neg nothing]
    rcases accepted : RuleTable.ofRules rules with error | table
    · rw [accepted] at compiled
      dsimp only at compiled
      rw [compiled]
      rfl
    · rw [accepted] at compiled
      rcases compiled with ⟨other, acceptedToo, renames⟩
      rw [acceptedToo]
      refine ⟨_, rfl, ?_⟩
      intro passes
      have same : fresh (start.renamed names) other (ignore.map names.apply) actions host chance =
          (fresh start table ignore actions host chance).renamed names other := by
        rw [fresh, Forest.size_renamed]
        rfl
      have inForce : (fresh start table ignore actions host chance).rules = table := rfl
      have onward := generateMany_renamed renames inForce passes
      rw [← same] at onward
      constructor <;> rw [onward] <;> rfl

/-! ## A signal of brackets -/

/-- The digit that makes up the signal becomes an opening bracket, and the other way round. -/
def bracketSignal : Renaming := .swap .opening ⟨"1"⟩ (by decide) (by decide)

/-- The signal has its digits as contexts, opens branches and ignores symbols.  As a signal of
brackets, none of which bounds a branch, it travels all the same. -/
theorem signal_developsAlike :
    (Forest.visits (Catalog.signal.start.renamed bracketSignal)).map (·.symbol.text) =
        ["F", "[", "F", "[", "F", "["] ∧
      ∃ first other : Development Float Unit,
        create Catalog.signal.start Catalog.signal.rules Catalog.signal.ignore .empty ()
            (.scripted []) = .ok first ∧
          create (Catalog.signal.start.renamed bracketSignal)
            (Catalog.signal.rules.map (·.renamed bracketSignal))
            (Catalog.signal.ignore.map bracketSignal.apply) .empty () (.scripted []) = .ok other ∧
          ∀ passes, DevelopsAlike bracketSignal passes first other := by
  have accepted : (create Catalog.signal.start Catalog.signal.rules Catalog.signal.ignore .empty ()
      (.scripted []) : Except _ (Development Float Unit)).isOk = true := by decide
  have alike := developsAlike_renamed bracketSignal Catalog.signal.start Catalog.signal.rules
    Catalog.signal.ignore (.empty : Actions Float Unit) () (.scripted [])
  rcases created : (create Catalog.signal.start Catalog.signal.rules Catalog.signal.ignore .empty ()
      (.scripted []) : Except _ (Development Float Unit)) with error | first
  · rw [created] at accepted
    cases accepted
  · rw [created] at alike
    rcases alike with ⟨other, alsoCreated, develops⟩
    exact ⟨by decide, first, other, rfl, alsoCreated, develops⟩

end Development
end LSystem
