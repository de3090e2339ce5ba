import LSystem.Forest.Basic

namespace LSystem

/-!
# Drafts

The next generation is written from left to right while the current one is
walked through.  A draft keeps one page for the outermost level and one for each
branch that is still open.  A page holds its elements last first, because
elements are added at the end.  Main statement: opening a branch, writing its
contents and closing it again is the same as adding the branch as a whole.
-/

/-- A forest that is being written. -/
structure Draft (V : Type) where
  page : List (Element V)
  enclosing : List (List (Element V))

namespace Draft

variable {V : Type}

/-- Nothing has been written yet, and no branch is open. -/
def blank : Draft V := ⟨[], []⟩

/-- Adds elements at the end of the open page. -/
def append (draft : Draft V) (elements : Forest V) : Draft V :=
  { draft with page := elements.reverse ++ draft.page }

/-- Opens a branch, on a page of its own. -/
def openBranch (draft : Draft V) : Draft V := ⟨[], draft.page :: draft.enclosing⟩

/-- Closes the branch opened last and adds it to the page around it. -/
def closeBranch (draft : Draft V) : Draft V :=
  let branch := Element.branch draft.page.reverse
  match draft.enclosing with
  | [] => ⟨[branch], []⟩
  | outer :: around => ⟨branch :: outer, around⟩

/-- The number of open pages. -/
def depth (draft : Draft V) : Nat := draft.enclosing.length + 1

/-- What has been written on the outermost page. -/
def forest (draft : Draft V) : Forest V :=
  (draft.enclosing.getLastD draft.page).reverse

/-! ## Laws of writing -/

@[simp]
theorem append_nil (draft : Draft V) : draft.append [] = draft := rfl

@[simp]
theorem append_append (draft : Draft V) (first second : Forest V) :
    (draft.append first).append second = draft.append (first ++ second) := by
  simp [append]

@[simp]
theorem forest_append_blank (elements : Forest V) :
    ((blank : Draft V).append elements).forest = elements := by
  simp [append, blank, forest]

/-- A branch that is written page by page is the branch written as a whole. -/
@[simp]
theorem closeBranch_append_openBranch (draft : Draft V) (contents : Forest V) :
    (draft.openBranch.append contents).closeBranch = draft.append [.branch contents] := by
  simp [append, openBranch, closeBranch]

end Draft
end LSystem
