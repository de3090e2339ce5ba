import LSystem.Development.Basic

namespace LSystem

/-!
# Generating

A generation is made in one go by `generate`, or in steps: `beginPass` starts a
pass and `stepPass` takes one step of it.  The last step completes the pass; a
pass over an empty generation is complete as soon as it begins.  An error
abandons the pass and leaves the current generation as it was.
-/

namespace Development

variable {V σ : Type}

/-- Completes a pass.  What it has written becomes the current generation, and a
rendering of the old generation is abandoned. -/
def commit (pass : Pass V) (system : Development V σ) : Development V σ :=
  { system with
    current := pass.draft.forest
    generation := system.generation + 1
    moduleCount := pass.tally.moduleCount
    pass := none
    rendering := none
    lastPass := some ⟨system.generation + 1, pass.tally⟩ }

/-- Parks a pass until its next step, or completes it if it has none. -/
def parkPass (pass : Pass V) (system : Development V σ) : Development V σ :=
  if pass.hasNext then { system with pass := some pass } else system.commit pass

/-- Starts a pass over the current generation in place of an unfinished one. -/
def beginPass (system : Development V σ) : Development V σ :=
  system.parkPass (.start system.current)

/-- Whether a pass is in progress. -/
def isGenerating (system : Development V σ) : Bool := system.pass.any (·.hasNext)

/-- One step of the pass in progress. -/
def stepPass (system : Development V σ) : Except Fault Unit × Development V σ :=
  match system.pass with
  | none => (.error (.violation .noPassInProgress), system)
  | some pass =>
      match pass.step system.rules system.ignore system.chance with
      | (.error fault, chance) => (.error fault, { system with chance, pass := none })
      | (.ok pass, chance) => (.ok (), ({ system with chance }).parkPass pass)

/-- Takes up to `limit` steps and adds their number to `taken`. -/
def advancePassFrom (taken : Nat) : Nat → Development V σ → Except Fault Nat × Development V σ
  | 0, system => (.ok taken, system)
  | limit + 1, system =>
      if system.isGenerating then
        match system.stepPass with
        | (.error fault, system) => (.error fault, system)
        | (.ok (), system) => advancePassFrom (taken + 1) limit system
      else (.ok taken, system)

/-- Takes up to `limit` steps of the pass in progress and says how many there
were.  It never goes on to another pass. -/
def advancePass (limit : Nat) (system : Development V σ) : Except Fault Nat × Development V σ :=
  advancePassFrom 0 limit system

/-- One whole pass.  It has as many steps as the generation has elements. -/
def generate (system : Development V σ) : Except Fault Unit × Development V σ :=
  let (outcome, system) := system.beginPass.advancePass (Forest.size system.current)
  (outcome.map fun _ => (), system)

/-- Several passes, up to the first that fails. -/
def generateMany : Nat → Development V σ → Except Fault Unit × Development V σ
  | 0, system => (.ok (), system)
  | passes + 1, system =>
      match system.generate with
      | (.error fault, system) => (.error fault, system)
      | (.ok (), system) => generateMany passes system

end Development
end LSystem
