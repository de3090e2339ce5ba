import LSystem.Fault.ConfigurationError
import LSystem.Fault.ContractViolation

namespace LSystem

/-!
# Faults

An operation on a running system fails either because its caller broke the
contract or because the grammar turns out to be unusable.
-/

/-- Why an operation has failed. -/
inductive Fault where
  | violation (cause : ContractViolation)
  | configuration (cause : ConfigurationError)

/-- The text of a fault is that of its cause. -/
def Fault.message : Fault → String
  | .violation cause => cause.message
  | .configuration cause => cause.message

end LSystem
