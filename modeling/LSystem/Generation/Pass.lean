import LSystem.Fault
import LSystem.Generation.Draft
import LSystem.Rule.Match

namespace LSystem

/-!
# Passes

A pass walks through one generation and writes the next one.  Every module is
replaced where it stands: a rule is matched against the generation that is being
walked through, never against what has been written already.  A pass can
stop after any step and be taken up again.
-/

/-- What a pass has done so far. -/
structure PassTally where
  visited : Nat
  replaced : Nat
  copied : Nat
  dropped : Nat
  moduleCount : Nat
deriving DecidableEq

/-- What a completed pass has done, and the number of the generation it made. -/
structure PassReport where
  generation : Nat
  tally : PassTally
deriving DecidableEq

/-- A pass in progress. -/
structure Pass (V : Type) where
  cursor : Cursor V
  draft : Draft V
  tally : PassTally

namespace PassTally

def zero : PassTally := ⟨0, 0, 0, 0, 0⟩

def visit (tally : PassTally) : PassTally := { tally with visited := tally.visited + 1 }

/-- A branch counts when it is closed, once for each of its two ends. -/
def close (tally : PassTally) : PassTally := { tally with moduleCount := tally.moduleCount + 2 }

def drop (tally : PassTally) : PassTally := { tally with dropped := tally.dropped + 1 }

def replace (tally : PassTally) (size : Nat) : PassTally :=
  { tally with replaced := tally.replaced + 1, moduleCount := tally.moduleCount + size }

def copy (tally : PassTally) : PassTally :=
  { tally with copied := tally.copied + 1, moduleCount := tally.moduleCount + 1 }

end PassTally

namespace Pass

variable {V : Type}

/-- In front of a generation, with nothing written yet. -/
def start (forest : Forest V) : Pass V := ⟨.start forest, .blank, .zero⟩

@[simp]
theorem cursor_start (forest : Forest V) : (start forest).cursor = .start forest := rfl

def hasNext (pass : Pass V) : Bool := pass.cursor.hasNext

/-- Hands one module on: an inert one is dropped, one that a rule applies to is
replaced, and every other one is copied.  The cursor has just produced it. -/
def writeLetter (table : RuleTable V) (ignore : List Symbol) (chance : Chance) (letter : Module V)
    (pass : Pass V) : Except Fault (Pass V) × Chance :=
  if letter.isInert then (.ok { pass with tally := pass.tally.drop }, chance)
  else
    let ⟨outcome, cursor, chance⟩ := table.derive ignore letter pass.cursor chance
    match outcome with
    | .error error => (.error (.configuration error), chance)
    | .ok (some replacement) =>
        (.ok ⟨cursor, pass.draft.append replacement, pass.tally.replace (Forest.size replacement)⟩,
          chance)
    | .ok none => (.ok ⟨cursor, pass.draft.append [.leaf letter], pass.tally.copy⟩, chance)

/-- One step of a pass.  Draws that have been made stay made when it fails. -/
def step (table : RuleTable V) (ignore : List Symbol) (chance : Chance) (pass : Pass V) :
    Except Fault (Pass V) × Chance :=
  match pass.cursor.next with
  | .error violation => (.error (.violation violation), chance)
  | .ok (visit, cursor) =>
      let pass : Pass V := ⟨cursor, pass.draft, pass.tally.visit⟩
      match visit with
      | .enter => (.ok { pass with draft := pass.draft.openBranch }, chance)
      | .exit =>
          (.ok { pass with draft := pass.draft.closeBranch, tally := pass.tally.close }, chance)
      | .leaf letter => pass.writeLetter table ignore chance letter

end Pass
end LSystem
