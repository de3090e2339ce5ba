namespace LSystem

/-!
# The exact value of a float

Printing a float is arithmetic on whole numbers once the float is read as a
significand times a power of two.
-/

/-- A float as an exact number: apart from the special values it is
`significand * 2 ^ exponent`, with a sign that zero has as well. -/
inductive Binary where
  | notANumber
  | infinite (negative : Bool)
  | finite (negative : Bool) (significand : Nat) (exponent : Int)
deriving DecidableEq

namespace Binary

/-- The significands of normal floats lie between this number and its double. -/
def implicitBit : Nat := Nat.pow 2 52

/-- The exponent of the smallest floats. -/
def leastExponent : Int := -1074

/-- Takes the sign, the exponent and the fraction out of the bits of a float. -/
def ofFloat (value : Float) : Binary :=
  let bits := value.toBits.toNat
  let negative := bits / Nat.pow 2 63 == 1
  let field := bits / implicitBit % Nat.pow 2 11
  let fraction := bits % implicitBit
  if field = Nat.pow 2 11 - 1 then
    if fraction = 0 then .infinite negative else .notANumber
  else if field = 0 then .finite negative fraction leastExponent
  else .finite negative (implicitBit + fraction) (leastExponent + (field - 1 : Nat))

end Binary
end LSystem
