import LSystem.Generation.Pass
import LSystem.Proofs.Rule.Renaming

namespace LSystem

/-!
# Passes under other names

A pass asks of a module whether it is inert and what becomes of it, and both are the same
under new names.  Main statement: a step of the renamed pass is the renamed step, with the
same tally, the same draws and the same error if it fails.
-/

variable {V : Type}

def Draft.renamed (names : Renaming) (draft : Draft V) : Draft V :=
  ⟨draft.page.map (·.renamed names), draft.enclosing.map (·.map (·.renamed names))⟩

def Pass.renamed (names : Renaming) (pass : Pass V) : Pass V :=
  { pass with cursor := pass.cursor.renamed names, draft := pass.draft.renamed names }

section Steps

variable (names : Renaming)

namespace Draft

@[simp]
theorem append_renamed (draft : Draft V) (elements : Forest V) :
    (draft.renamed names).append (elements.renamed names) =
      (draft.append elements).renamed names := by
  simp [append, renamed, Forest.renamed_eq_map]

@[simp]
theorem openBranch_renamed (draft : Draft V) :
    (draft.renamed names).openBranch = draft.openBranch.renamed names := rfl

@[simp]
theorem closeBranch_renamed (draft : Draft V) :
    (draft.renamed names).closeBranch = draft.closeBranch.renamed names := by
  rcases draft with ⟨page, _ | ⟨outer, around⟩⟩
  · simp [closeBranch, renamed, Forest.renamed_eq_map]
  · simp [closeBranch, renamed, Forest.renamed_eq_map]

@[simp]
theorem forest_renamed (draft : Draft V) :
    (draft.renamed names).forest = draft.forest.renamed names := by
  rcases draft with ⟨page, enclosing⟩
  rw [Forest.renamed_eq_map]
  simp only [forest, renamed, List.getLastD_eq_getLast?, List.getLast?_map, List.map_reverse]
  rcases enclosing.getLast? with _ | outermost
  · rfl
  · rfl

end Draft

namespace Pass

@[simp]
theorem renamed_start (forest : Forest V) :
    (start forest).renamed names = start (forest.renamed names) := by
  have blank : (Draft.blank : Draft V).renamed names = .blank := rfl
  simp [renamed, start, Cursor.renamed, Cursor.start, Place.renamed, Place.root, blank]

@[simp]
theorem hasNext_renamed (pass : Pass V) : (pass.renamed names).hasNext = pass.hasNext :=
  Cursor.hasNext_renamed names pass.cursor

variable {names} {table other : RuleTable V} (renames : table.Renames names other)
  (ignore : List Symbol)

include renames

theorem writeLetter_renamed (chance : Chance) (letter : Module V) (pass : Pass V) :
    (pass.renamed names).writeLetter other (ignore.map names.apply) chance
        (letter.renamed names) =
      ((pass.writeLetter table ignore chance letter).1.map (·.renamed names),
        (pass.writeLetter table ignore chance letter).2) := by
  have copied : ([.leaf (letter.renamed names)] : Forest V) =
      Forest.renamed names [.leaf letter] := by
    simp
  have derived := renames.derive ignore letter pass.cursor chance
  rcases pass with ⟨cursor, draft, tally⟩
  simp only [writeLetter, renamed, Module.isInert_renamed] at derived ⊢
  split
  · rfl
  · rw [derived, copied]
    rcases table.derive ignore letter cursor chance with ⟨error | replacement, moved, after⟩
    · rfl
    · rcases replacement with _ | replacement
      · simp only [Derivation.renamed, Except.map, Option.map_none, Draft.append_renamed]
      · simp [Derivation.renamed, Except.map]

theorem step_renamed (chance : Chance) (pass : Pass V) :
    (pass.renamed names).step other (ignore.map names.apply) chance =
      ((pass.step table ignore chance).1.map (·.renamed names),
        (pass.step table ignore chance).2) := by
  have produced : (pass.renamed names).cursor.next =
      pass.cursor.next.map fun taken => (taken.1.renamed names, taken.2.renamed names) :=
    Cursor.next_renamed names pass.cursor
  rw [step, step, produced]
  rcases pass.cursor.next with violation | ⟨visit, cursor⟩
  · rfl
  · cases visit with
    | enter =>
        simp [Except.map, Visit.renamed, renamed]
    | exit =>
        simp [Except.map, Visit.renamed, renamed]
    | leaf letter =>
        exact writeLetter_renamed renames ignore chance letter
          ⟨cursor, pass.draft, pass.tally.visit⟩

end Pass
end Steps
end LSystem
