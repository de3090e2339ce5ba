namespace LSystem

/-!
# Contract violations

Some operations may only be called in some states.  A caller can always find
out beforehand whether it may, so a call in a wrong state is a mistake of the
caller and not a property of its grammar.  It changes nothing.
-/

/-- A call that its caller had no right to make. -/
inductive ContractViolation where
  | exhaustedWalk
  | noPassInProgress
  | noRenderInProgress
deriving DecidableEq

/-- The text of a violation. -/
def ContractViolation.message : ContractViolation → String
  | .exhaustedWalk => "tree cursor advanced past the end of the forest"
  | .noPassInProgress => "generate_next called with no pass in progress"
  | .noRenderInProgress => "render_next called with no render in progress"

end LSystem
