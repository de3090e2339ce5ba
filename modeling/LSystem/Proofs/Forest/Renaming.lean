import LSystem.Forest.Visit
import Mathlib.Data.List.Basic
import Mathlib.Logic.Equiv.Basic

namespace LSystem

/-!
# Renamings

A renaming gives every symbol a name, and no two symbols the same one.  It leaves the
inert symbol alone, but the brackets are symbols like any others: they may be renamed,
and other symbols may become brackets.  The branches of a forest stay branches, because
they have no name.
-/

/-- A way to rename symbols that tells all of them apart and keeps the inert one. -/
structure Renaming where
  apply : Symbol → Symbol
  injective : Function.Injective apply
  inert : apply .inert = .inert

/-- Two symbols change their names.  Both may be brackets, and neither is the inert one. -/
def Renaming.swap (first second : Symbol) (firstAlive : first ≠ .inert)
    (secondAlive : second ≠ .inert) : Renaming where
  apply := Equiv.swap first second
  injective := (Equiv.swap first second).injective
  inert := Equiv.swap_apply_of_ne_of_ne firstAlive.symm secondAlive.symm

variable {V : Type}

def Signature.renamed (names : Renaming) (signature : Signature) : Signature :=
  { signature with symbol := names.apply signature.symbol }

/-- A module under the new name of its symbol, with the same arguments. -/
def Module.renamed (names : Renaming) (letter : Module V) : Module V :=
  { letter with symbol := names.apply letter.symbol }

mutual

/-- One element with all of its modules renamed. -/
def Element.renamed (names : Renaming) : Element V → Element V
  | .leaf letter => .leaf (letter.renamed names)
  | .branch contents => .branch (Forest.renamed names contents)

/-- A forest with all of its modules renamed. -/
def Forest.renamed (names : Renaming) : Forest V → Forest V
  | [] => []
  | element :: rest => element.renamed names :: Forest.renamed names rest

end

attribute [simp] Element.renamed Forest.renamed

/-- Entering and leaving a branch have no name that could be changed. -/
def Visit.renamed (names : Renaming) : Visit V → Visit V
  | .enter => .enter
  | .exit => .exit
  | .leaf letter => .leaf (letter.renamed names)

/-! ## What a renaming keeps -/

section Keeps

variable (names : Renaming)

@[simp]
theorem Signature.renamed_eq_iff (signature other : Signature) :
    signature.renamed names = other.renamed names ↔ signature = other := by
  rcases signature with ⟨symbol, arity⟩
  rcases other with ⟨otherSymbol, otherArity⟩
  rw [renamed, renamed, Signature.mk.injEq, Signature.mk.injEq, names.injective.eq_iff]

/-- Whether a symbol is ignored does not depend on names. -/
theorem Renaming.contains_map (ignore : List Symbol) (symbol : Symbol) :
    (ignore.map names.apply).contains (names.apply symbol) = ignore.contains symbol := by
  rw [Bool.eq_iff_iff, List.contains_iff_mem, List.contains_iff_mem]
  exact List.mem_map_of_injective names.injective

@[simp]
theorem Module.signature_renamed (letter : Module V) :
    (letter.renamed names).signature = letter.signature.renamed names := rfl

@[simp]
theorem Module.isInert_renamed (letter : Module V) :
    (letter.renamed names).isInert = letter.isInert := by
  have same : names.apply letter.symbol = names.apply .inert ↔ letter.symbol = .inert :=
    names.injective.eq_iff
  rw [names.inert] at same
  rw [isInert, isInert, decide_eq_decide]
  exact same

theorem Forest.renamed_eq_map (forest : Forest V) :
    forest.renamed names = forest.map (·.renamed names) := by
  induction forest with
  | nil => simp
  | cons element rest inductionHypothesis => simp [inductionHypothesis]

@[simp]
theorem Forest.size_renamed (forest : Forest V) :
    Forest.size (forest.renamed names) = Forest.size forest := by
  induction forest using Forest.induction with
  | nil => simp
  | leaf first rest inRest => simp [inRest]
  | branch contents rest inContents inRest => simp [inContents, inRest]

end Keeps
end LSystem
