import LSystem.Decimal.Shortest

namespace LSystem

/-!
# Writing numbers

Which digits a float is written with and how they are laid out are two
questions.  The digits come from `Decimal.shortest`; a `NumberLayout` answers the
second question.  Results and messages use `NumberLayout.plain`, descriptions of
values use `NumberLayout.described`.
-/

namespace Decimal

/-- Digits that fill the places between the point and the digits of a number. -/
def zeros (count : Nat) : List Char := List.replicate count '0'

/-- The exponent of the first digit. -/
def magnitude (decimal : Decimal) : Int :=
  ((Nat.toDigits 10 decimal.coefficient).length : Int) - 1 + decimal.exponent

/-- Every digit at its place, and at least `places` of them behind the point. -/
def positional (places : Nat) (decimal : Decimal) : List Char :=
  let digits := Nat.toDigits 10 decimal.coefficient
  let behind := (-decimal.exponent).toNat
  let padded := zeros (behind + 1 - digits.length) ++ digits ++ zeros decimal.exponent.toNat
  let whole := padded.take (padded.length - behind)
  let part := padded.drop (padded.length - behind)
  let part := part ++ zeros (places - part.length)
  if part.isEmpty then whole else whole ++ '.' :: part

/-- One digit before the point, and a power of ten. -/
def scientific (decimal : Decimal) : List Char :=
  let power := 'e' :: (toString decimal.magnitude).toList
  match Nat.toDigits 10 decimal.coefficient with
  | [] => power
  | [digit] => digit :: power
  | digit :: rest => digit :: '.' :: rest ++ power

end Decimal

/-- How the digits of a number are laid out: how many of them stand behind the
point at least, and which magnitudes are written with every digit at its place.
The other magnitudes are written with a power of ten. -/
structure NumberLayout where
  places : Nat
  isPositional : Int → Bool

namespace NumberLayout

/-- A whole number has no point, and a power of ten is never written. -/
def plain : NumberLayout := ⟨0, fun _ => true⟩

/-- A whole number keeps one zero behind the point, and numbers below `10 ^ -4`
or from `10 ^ 16` on are written with a power of ten. -/
def described : NumberLayout := ⟨1, fun magnitude => -4 ≤ magnitude && magnitude < 16⟩

/-- Puts the sign of a negative number in front. -/
def signed (negative : Bool) (digits : List Char) : String :=
  String.ofList (if negative then '-' :: digits else digits)

/-- Writes a float.  Zero has a sign as well, and the special values have names. -/
def write (layout : NumberLayout) (value : Float) : String :=
  match Binary.ofFloat value with
  | .notANumber => "NaN"
  | .infinite negative => signed negative ['i', 'n', 'f']
  | .finite negative 0 _ => signed negative (Decimal.positional layout.places ⟨0, 0⟩)
  | .finite negative significand exponent =>
      let decimal := Decimal.shortest significand exponent
      signed negative (
        if layout.isPositional decimal.magnitude then decimal.positional layout.places
        else decimal.scientific)

end NumberLayout

/-! ## A fixed number of places -/

/-- The nearest whole number to a quotient; of two equally near ones the even. -/
def roundHalfEven (numerator denominator : Nat) : Nat :=
  let below := numerator / denominator
  let rest := 2 * (numerator % denominator)
  if denominator < rest then below + 1
  else if rest = denominator && below % 2 = 1 then below + 1
  else below

/-- Writes a float with exactly `places` digits behind the point, rounding its
exact value.  A negative number keeps its sign when it is rounded to zero. -/
def writeFixed (places : Nat) (value : Float) : String :=
  match Binary.ofFloat value with
  | .notANumber => "NaN"
  | .infinite negative => NumberLayout.signed negative ['i', 'n', 'f']
  | .finite negative significand exponent =>
      let exact := Fraction.scaled (significand * Nat.pow 10 places) 2 exponent
      let rounded : Decimal := ⟨roundHalfEven exact.numerator exact.denominator, -places⟩
      NumberLayout.signed negative (rounded.positional places)

end LSystem
