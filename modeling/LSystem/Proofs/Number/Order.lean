import Mathlib

namespace LSystem
namespace Number

/-!
# The order of numbers

Probabilities, sums of them and draws are compared as numbers of double
precision, among which there is one that compares with nothing.  Every other
number stands at a height, and two numbers compare as their heights do.  Main
statements: the comparisons of numbers, put in terms of heights, and what
follows for chains of them.
-/

open Float.Model (UnpackedFloat)

/-! ## Heights -/

/-- Where a number stands among all others.  The first part tells the infinite
numbers, the signs and zero apart; the second one is the exponent and the third
one the mantissa, both turned around below zero. -/
abbrev Height := Int ×ₗ Int ×ₗ Int

namespace Height

def of (size exponent mantissa : Int) : Height := toLex (size, toLex (exponent, mantissa))

def ofUnpacked? : UnpackedFloat → Option Height
  | .notANumber => none
  | .infinity .negative => some (of (-2) 0 0)
  | .infinity .positive => some (of 2 0 0)
  | .zero _ => some (of 0 0 0)
  | .finite .negative mantissa exponent _ => some (of (-1) (-exponent) (-mantissa))
  | .finite .positive mantissa exponent _ => some (of 1 exponent mantissa)

theorem of_le_of {size exponent mantissa size' exponent' mantissa' : Int} :
    of size exponent mantissa ≤ of size' exponent' mantissa' ↔
      size < size' ∨ size = size' ∧
        (exponent < exponent' ∨ exponent = exponent' ∧ mantissa ≤ mantissa') := by
  simp only [of, Prod.Lex.toLex_le_toLex]

theorem compare_of (size exponent mantissa size' exponent' mantissa' : Int) :
    compare (of size exponent mantissa) (of size' exponent' mantissa') =
      (compare size size').then
        ((compare exponent exponent').then (compare mantissa mantissa')) := rfl

theorem compare_natCast (left right : Nat) : compare (left : Int) right = compare left right := by
  simp only [compare, compareOfLessAndEq, Int.ofNat_lt, Int.natCast_inj]

theorem compare_neg_neg (left right : Int) :
    compare (-left) (-right) = (compare left right).swap := by
  simp only [compare, compareOfLessAndEq, Int.neg_lt_neg_iff, Int.neg_inj]
  rcases Int.lt_trichotomy left right with below | rfl | above
  · rw [if_pos below, if_neg (Int.lt_asymm below), if_neg (Int.ne_of_lt below)]
    rfl
  · rw [if_neg (Int.lt_irrefl left), if_pos rfl]
    rfl
  · rw [if_pos above, if_neg (Int.lt_asymm above), if_neg (Int.ne_of_gt above)]
    rfl

/-- The comparison of two numbers goes by the kind of each.  Only between finite
numbers of one sign does it look at exponents and mantissas. -/
theorem compare_ofUnpacked? (left right : UnpackedFloat) :
    left.compare right =
      (ofUnpacked? left).bind fun lower =>
        (ofUnpacked? right).map fun upper => compare lower upper := by
  rcases left with (_ | _) | _ | _ | ⟨_ | _, mantissa, exponent, pos⟩ <;>
    rcases right with (_ | _) | _ | _ | ⟨_ | _, mantissa', exponent', pos'⟩ <;>
    first
    | rfl
    | simp only [UnpackedFloat.compare, ofUnpacked?, Option.bind_some, Option.map_some,
        compare_of, compare_natCast, compare_neg_neg, Ordering.swap_then]
      rfl

end Height

/-- The height of a number, if it compares with anything. -/
def height? (number : Float) : Option Height := Height.ofUnpacked? number.toModel.unpack

/-! ## Comparisons -/

section Comparisons

variable {first second third : Float}

theorem compare_unpack (first second : Float) :
    first.toModel.unpack.compare second.toModel.unpack =
      (height? first).bind fun lower => (height? second).map fun upper => compare lower upper :=
  Height.compare_ofUnpacked? _ _

theorem le_iff : first ≤ second ↔
    ∃ lower upper, height? first = some lower ∧ height? second = some upper ∧ lower ≤ upper := by
  have compared : first ≤ second ↔ first.toModel.unpack.le second.toModel.unpack = true :=
    decide_eq_true_iff
  rw [compared, UnpackedFloat.le, compare_unpack]
  cases height? first <;> cases height? second <;>
    simp [← compare_le_iff_le, Ordering.isLE_iff_ne_gt]

theorem lt_iff : first < second ↔
    ∃ lower upper, height? first = some lower ∧ height? second = some upper ∧ lower < upper := by
  have compared : first < second ↔ first.toModel.unpack.lt second.toModel.unpack = true :=
    decide_eq_true_iff
  rw [compared, UnpackedFloat.lt, compare_unpack]
  cases height? first <;> cases height? second <;> simp [← compare_lt_iff_lt]

theorem beq_iff : (first == second) = true ↔
    ∃ height, height? first = some height ∧ height? second = some height := by
  have compared : (first == second) = first.toModel.unpack.beq second.toModel.unpack := rfl
  rw [compared, UnpackedFloat.beq, compare_unpack]
  cases height? first <;> cases height? second <;> simp
  exact compare_eq_iff_eq.trans eq_comm

/-! ## Chains of comparisons -/

theorem le_self_of_le (reached : first ≤ second) : second ≤ second := by
  rcases le_iff.mp reached with ⟨_, upper, -, second, -⟩
  exact le_iff.mpr ⟨upper, upper, second, second, le_rfl⟩

theorem le_trans (lower : first ≤ second) (upper : second ≤ third) : first ≤ third := by
  rcases le_iff.mp lower with ⟨low, middle, isLow, isMiddle, below⟩
  rcases le_iff.mp upper with ⟨_, high, isAgain, isHigh, above⟩
  cases isMiddle.symm.trans isAgain
  exact le_iff.mpr ⟨low, high, isLow, isHigh, below.trans above⟩

theorem lt_of_lt_of_le (lower : first < second) (upper : second ≤ third) : first < third := by
  rcases lt_iff.mp lower with ⟨low, middle, isLow, isMiddle, below⟩
  rcases le_iff.mp upper with ⟨_, high, isAgain, isHigh, above⟩
  cases isMiddle.symm.trans isAgain
  exact lt_iff.mpr ⟨low, high, isLow, isHigh, below.trans_le above⟩

theorem not_lt_of_le (above : second ≤ first) : ¬ first < second := by
  intro below
  rcases le_iff.mp above with ⟨low, high, isLow, isHigh, least⟩
  rcases lt_iff.mp below with ⟨_, _, isHigh', isLow', less⟩
  cases isLow.symm.trans isLow'
  cases isHigh.symm.trans isHigh'
  exact absurd less least.not_gt

/-- Of two numbers that compare with anything, one is below the other or not. -/
theorem le_of_not_lt (isFirst : first ≤ first) (isSecond : second ≤ second)
    (notBelow : ¬ first < second) : second ≤ first := by
  rcases le_iff.mp isFirst with ⟨height, _, found, -⟩
  rcases le_iff.mp isSecond with ⟨height', _, found', -⟩
  refine le_iff.mpr ⟨height', height, found', found, not_lt.mp fun less => notBelow ?_⟩
  exact lt_iff.mpr ⟨height, height', found, found', less⟩

theorem le_of_beq (same : (first == second) = true) : first ≤ second := by
  rcases beq_iff.mp same with ⟨height, isFirst, isSecond⟩
  exact le_iff.mpr ⟨height, height, isFirst, isSecond, le_rfl⟩

theorem beq_symm (same : (first == second) = true) : (second == first) = true := by
  rcases beq_iff.mp same with ⟨height, isFirst, isSecond⟩
  exact beq_iff.mpr ⟨height, isSecond, isFirst⟩

end Comparisons
end Number
end LSystem
