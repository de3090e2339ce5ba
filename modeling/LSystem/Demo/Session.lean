import LSystem.Demo.Turtle
import LSystem.Development.Generate
import LSystem.Development.Render

namespace LSystem

/-!
# Sessions

A session makes a number of generations and then renders the last one with the
turtle.  Both can be driven a few elements at a time, with the same result.
-/

namespace Development

variable {V σ : Type}

/-- Takes steps in chunks until the pass in progress is complete, in at most
`rounds` chunks. -/
def finishPass (chunk : Nat) : Nat → Development V σ → Except Fault Unit × Development V σ
  | 0, system => (.ok (), system)
  | rounds + 1, system =>
      if system.isGenerating then
        match system.advancePass chunk with
        | (.error fault, system) => (.error fault, system)
        | (.ok _, system) => finishPass chunk rounds system
      else (.ok (), system)

/-- One whole pass in chunks.  Chunks are not empty, so there are at most as many
of them as the generation has elements. -/
def generateInChunks (chunk : Nat) (system : Development V σ) :
    Except Fault Unit × Development V σ :=
  system.beginPass.finishPass chunk (Forest.size system.current)

/-- Takes steps in chunks until the rendering in progress is complete. -/
def finishRendering (chunk : Nat) : Nat → Development V σ → Development V σ
  | 0, system => system
  | rounds + 1, system =>
      if system.isRendering then finishRendering chunk rounds (system.advanceRendering chunk).2
      else system

/-- One whole rendering in chunks. -/
def renderInChunks (chunk : Nat) (system : Development V σ) : Development V σ :=
  system.beginRendering.finishRendering chunk (Forest.size system.current)

end Development

/-- Measures how long work takes, in nanoseconds. -/
structure Stopwatch (m : Type → Type) where
  measure : {α : Type} → (Unit → α) → m (α × Nat)

/-- Takes no time at all, so that sessions can be repeated exactly. -/
def Stopwatch.still : Stopwatch Id := ⟨fun work => pure (work (), 0)⟩

/-- A completed pass and how long it took. -/
structure TimedPass where
  report : PassReport
  nanoseconds : Nat

/-- What a session has led to. -/
structure Session where
  system : Development Float Turtle
  passes : List TimedPass
  renderNanoseconds : Nat

namespace Session

variable {m : Type → Type} [Monad m]

/-- One generation, in one go or in chunks. -/
def generate (chunk : Option Nat) (system : Development Float Turtle) :
    Except Fault Unit × Development Float Turtle :=
  match chunk with
  | none => system.generate
  | some chunk => system.generateInChunks chunk

/-- One rendering, in one go or in chunks. -/
def render (chunk : Option Nat) (system : Development Float Turtle) : Development Float Turtle :=
  match chunk with
  | none => system.render
  | some chunk => system.renderInChunks chunk

/-- Makes generations, and adds what each pass has done to `passes`, last first. -/
def makeGenerations (stopwatch : Stopwatch m) (chunk : Option Nat) (passes : List TimedPass) :
    Nat → Development Float Turtle → m (Except Fault (List TimedPass × Development Float Turtle))
  | 0, system => pure (.ok (passes, system))
  | generations + 1, system => do
      let ((outcome, system), nanoseconds) ← stopwatch.measure fun _ => generate chunk system
      match outcome with
      | .error fault => pure (.error fault)
      | .ok () =>
          let made := system.lastPass.toList.map (⟨·, nanoseconds⟩)
          makeGenerations stopwatch chunk (made ++ passes) generations system

/-- A whole session. -/
def run (stopwatch : Stopwatch m) (chunk : Option Nat) (generations : Nat)
    (system : Development Float Turtle) : m (Except Fault Session) := do
  match ← makeGenerations stopwatch chunk [] generations system with
  | .error fault => pure (.error fault)
  | .ok (passes, system) =>
      let (system, nanoseconds) ← stopwatch.measure fun _ => render chunk system
      pure (.ok ⟨system, passes.reverse, nanoseconds⟩)

end Session
end LSystem
