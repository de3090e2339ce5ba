import LSystem.Forest.Basic
import Mathlib.Logic.Function.Iterate

namespace LSystem

/-!
# Substitutions

To give every module an image of its own is to say what becomes of a whole forest: each
leaf gives way to its image, and each branch stays one branch around what becomes of its
contents.  Main statement: however often a substitution is repeated, it takes forests
that stand side by side to forests that stand side by side, and a branch to a branch.
-/

variable {V : Type}

section Substitute

variable (image : Module V → Forest V)

mutual

/-- Puts the images of its modules in place of one element. -/
def Element.substitute : Element V → Forest V
  | .leaf letter => image letter
  | .branch contents => [.branch (Forest.substitute contents)]

/-- Puts the image of every module in place of it. -/
def Forest.substitute : Forest V → Forest V
  | [] => []
  | element :: rest => element.substitute ++ Forest.substitute rest

end

attribute [simp] Element.substitute Forest.substitute

namespace Forest

@[simp]
theorem substitute_append (first second : Forest V) :
    substitute image (first ++ second) = substitute image first ++ substitute image second := by
  induction first with
  | nil => rfl
  | cons element rest inductionHypothesis => simp [inductionHypothesis]

theorem substitute_branch (contents : Forest V) :
    substitute image [.branch contents] = [.branch (substitute image contents)] := by
  simp

theorem iterate_substitute_append (times : Nat) (first second : Forest V) :
    (substitute image)^[times] (first ++ second) =
      (substitute image)^[times] first ++ (substitute image)^[times] second := by
  induction times generalizing first second with
  | zero => rfl
  | succ times inductionHypothesis =>
      simp [inductionHypothesis]

theorem iterate_substitute_branch (times : Nat) (contents : Forest V) :
    (substitute image)^[times] [.branch contents] =
      [.branch ((substitute image)^[times] contents)] := by
  have commutes : Function.Semiconj (fun contents : Forest V => [Element.branch contents])
      (substitute image) (substitute image) := by
    intro contents
    exact (substitute_branch image contents).symm
  exact (commutes.iterate_right times contents).symm

end Forest

end Substitute
end LSystem
