import LSystem.Decimal.Binary

namespace LSystem

/-!
# The fewest digits that read back

A float stands for every real number that rounds to it.  Among the decimal
numbers in that interval the shortest ones have the fewest digits, and of those
the one nearest to the float is chosen.  The search goes from coarse to fine
decimal grids and stops at the first grid with a point in the interval.  Only
the two neighbours of the float have to be tried on each grid.
-/

/-- The number `coefficient * 10 ^ exponent`. -/
structure Decimal where
  coefficient : Nat
  exponent : Int
deriving DecidableEq

/-- A positive fraction.  The denominator is not zero. -/
structure Fraction where
  numerator : Nat
  denominator : Nat

namespace Fraction

/-- The number `factor * base ^ exponent`. -/
def scaled (factor base : Nat) (exponent : Int) : Fraction :=
  ⟨factor * base.pow exponent.toNat, base.pow (-exponent).toNat⟩

/-- Compares by multiplying out, so no digit is lost. -/
def lessThan (left right : Fraction) : Bool :=
  left.numerator * right.denominator < right.numerator * left.denominator

def atMost (left right : Fraction) : Bool := !right.lessThan left

def half (number : Fraction) : Fraction := ⟨number.numerator, 2 * number.denominator⟩

/-- How many units of `10 ^ exponent` fit into the number. -/
def wholeUnits (number : Fraction) (exponent : Int) : Nat :=
  number.numerator * Nat.pow 10 (-exponent).toNat / (number.denominator * Nat.pow 10 exponent.toNat)

/-- The exponent of the first decimal digit: the greatest power of ten that is
not above the number.  A number below one is as many places down as the whole
part of its inverse has digits, unless it is itself a power of ten. -/
def magnitude (number : Fraction) : Int :=
  if number.denominator ≤ number.numerator then
    ((Nat.toDigits 10 (number.numerator / number.denominator)).length : Int) - 1
  else
    -((Nat.toDigits 10 ((number.denominator - 1) / number.numerator)).length : Int)

end Fraction

namespace Decimal

/-- The numbers that round to one float, and the float itself.  The ends count
when the significand is even, because a tie goes to the even significand. -/
structure Interval where
  value : Fraction
  low : Fraction
  high : Fraction
  closed : Bool

/-- The interval of `significand * 2 ^ exponent`.  Half of the gap to the next
float lies on either side.  Below a power of two floats are twice as dense. -/
def Interval.around (significand : Nat) (exponent : Int) : Interval :=
  let quarters := exponent - 2
  let atPower := significand = Binary.implicitBit ∧ Binary.leastExponent < exponent
  { value := .scaled (4 * significand) 2 quarters
    low := .scaled (4 * significand - if atPower then 1 else 2) 2 quarters
    high := .scaled (4 * significand + 2) 2 quarters
    closed := significand % 2 = 0 }

def Interval.contains (interval : Interval) (number : Fraction) : Bool :=
  if interval.closed then interval.low.atMost number && number.atMost interval.high
  else interval.low.lessThan number && number.lessThan interval.high

/-- Whether the value lies below the middle between two neighbours on a grid. -/
def isNearerBelow (value : Fraction) (below : Nat) (exponent : Int) : Bool :=
  value.lessThan (Fraction.scaled (2 * below + 1) 10 exponent).half

/-- The neighbour of the value on the grid of `10 ^ exponent` that rounds to it.
If both do, the nearer one counts, and of two equally near ones the upper. -/
def onGrid? (interval : Interval) (exponent : Int) : Option Nat :=
  let below := interval.value.wholeUnits exponent
  let fits coefficient := interval.contains (.scaled coefficient 10 exponent)
  match fits below, fits (below + 1) with
  | true, true => some (if isNearerBelow interval.value below exponent then below else below + 1)
  | true, false => some below
  | false, true => some (below + 1)
  | false, false => none

/-- A number that fits on a grid of one digit may be the next power of ten, and
is then written with one digit again. -/
def ofGrid (coefficient : Nat) (exponent : Int) : Decimal :=
  if coefficient % 10 = 0 then ⟨coefficient / 10, exponent + 1⟩ else ⟨coefficient, exponent⟩

/-- Tries up to `grids` further grids, each ten times finer than the one before. -/
def search (interval : Interval) (exponent : Int) : Nat → Decimal
  | 0 => ofGrid (interval.value.wholeUnits exponent) exponent
  | grids + 1 =>
      match onGrid? interval exponent with
      | some coefficient => ofGrid coefficient exponent
      | none => search interval (exponent - 1) grids

/-- The decimal digits that tell a positive float apart from all other floats.
Seventeen digits always do. -/
def shortest (significand : Nat) (exponent : Int) : Decimal :=
  let interval := Interval.around significand exponent
  search interval interval.value.magnitude 17

end Decimal
end LSystem
