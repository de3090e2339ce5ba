import LSystem.Demo.CommandLine

/-!
# The program

Takes the arguments, the terminal, the clock and a random seed from the outside
and hands them to the command line.
-/

namespace LSystem

/-- Measures work with the clock of the machine. -/
def Stopwatch.real : Stopwatch IO where
  measure work := do
    let before ← IO.monoNanosNow
    let result ← IO.lazyPure work
    let after ← IO.monoNanosNow
    pure (result, after - before)

/-- A random seed for runs that have not been given one. -/
def randomSeed : IO UInt64 := do
  let bytes ← IO.getRandomBytes 8
  pure (bytes.toList.foldl (fun seed byte => seed * 256 + byte.toUInt64) 0)

end LSystem

open LSystem

def main (arguments : List String) : IO UInt32 := do
  let terminal ← (← IO.getStdout).isTty
  let seed ← randomSeed
  let outcome ← CommandLine.run ⟨terminal, .real, Duration.write, seed⟩ arguments
  IO.print outcome.output
  IO.eprint outcome.errors
  pure outcome.code.toUInt32
