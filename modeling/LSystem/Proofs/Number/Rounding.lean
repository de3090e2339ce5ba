import Mathlib

namespace LSystem
namespace Number

/-!
# Rounding

A number of double precision is a mantissa of at most 53 bits times a power of
two.  A mantissa that is too long loses its last bits, and the rest may go up by
one.  Main statement: rounding gives a number again, and never one below another
number that the exact value has reached.
-/

open Float.Model (UnpackedFloat Format totalExponent)
open Float.Model.UnpackedFloat

/-- A mantissa and an exponent as a positive number stores them: as many of the
53 bits are used as the least exponent allows. -/
structure Canonical (mantissa : Nat) (exponent : Int) : Prop where
  pos : 0 < mantissa
  lt : mantissa < 2 ^ 53
  least_le : -1074 ≤ exponent
  normal : -1074 < exponent → 2 ^ 52 ≤ mantissa

/-- The order of positive numbers goes by exponent first. -/
def NotAbove (mantissa : Nat) (exponent : Int) (mantissa' : Nat) (exponent' : Int) : Prop :=
  exponent < exponent' ∨ exponent = exponent' ∧ mantissa ≤ mantissa'

/-! ## Losing bits -/

theorem mantissa_shiftRight (extended : ExtendedMantissa) (amount : Nat) :
    (extended >>> amount).mantissa = extended.mantissa / 2 ^ amount := by
  induction amount with
  | zero => simp [HShiftRight.hShiftRight, Nat.repeat]
  | succ amount inductionHypothesis =>
      have halved : (extended >>> (amount + 1)).mantissa = (extended >>> amount).mantissa / 2 := rfl
      rw [halved, inductionHypothesis, Nat.div_div_eq_div_mul, Nat.pow_succ]

/-- What is lost can raise the rest by one and by no more. -/
theorem roundedMantissa_bounds (extended : ExtendedMantissa) :
    extended.mantissa ≤ extended.roundedMantissa ∧
      extended.roundedMantissa ≤ extended.mantissa + 1 := by
  rcases extended with ⟨mantissa, _ | _, _ | _⟩ <;>
    simp only [ExtendedMantissa.roundedMantissa, ExtendedMantissa.accuracy,
      Accuracy.roundToNearestEven] <;> omega

theorem targetExponent_eq (total : Int) :
    Format.binary64.targetExponent total = max (total - 53) (-1074) := rfl

/-- A mantissa that fits loses nothing. -/
theorem shiftToTargetExponent_of_lt {mantissa : Nat} {exponent : Int}
    (fits : mantissa < 2 ^ 53) (least : -1074 ≤ exponent) :
    shiftToTargetExponent Format.binary64 mantissa exponent .exact =
      (⟨mantissa, false, false⟩, exponent) := by
  have bits : mantissa.log2 ≤ 52 := by
    by_cases zero : mantissa = 0
    · simp [zero]
    · have := (Nat.log2_lt zero).mpr fits
      omega
  have still :
      (Format.binary64.targetExponent (totalExponent mantissa exponent) - exponent).toNat = 0 := by
    rw [targetExponent_eq, totalExponent]
    omega
  simp only [shiftToTargetExponent, shiftToExponent, still]
  simp [HShiftRight.hShiftRight, Nat.repeat, ExtendedMantissa.ofMantissaAndAccuracy]

/-- A mantissa that has been rounded up to one bit more loses that bit, a zero. -/
theorem shiftToTargetExponent_carried {exponent : Int} (least : -1074 ≤ exponent) :
    shiftToTargetExponent Format.binary64 (2 ^ 53) exponent .exact =
      (⟨2 ^ 52, false, false⟩, exponent + 1) := by
  have moved :
      (Format.binary64.targetExponent (totalExponent (2 ^ 53) exponent) - exponent).toNat = 1 := by
    rw [targetExponent_eq, totalExponent, Nat.log2_two_pow]
    omega
  simp only [shiftToTargetExponent, shiftToExponent, moved]
  simp [HShiftRight.hShiftRight, Nat.repeat, ExtendedMantissa.ofMantissaAndAccuracy,
    ExtendedMantissa.shiftRightOne]

theorem roundWithAccuracy_eq {mantissa : Nat} {exponent exponent' exponent'' : Int}
    {accuracy : Accuracy} {first last : ExtendedMantissa}
    (shifted : shiftToTargetExponent Format.binary64 mantissa exponent accuracy =
      (first, exponent'))
    (carried : shiftToTargetExponent Format.binary64 first.roundedMantissa exponent' .exact =
      (last, exponent''))
    (pos : 0 < last.mantissa) :
    roundWithAccuracy Format.binary64 .positive mantissa exponent accuracy =
      .finite .positive last.mantissa exponent'' pos := by
  simp only [roundWithAccuracy, shifted, carried]
  exact dif_neg (Nat.ne_of_gt pos)

/-! ## The rounded value -/

section Rounded

variable {mantissa : Nat} {exponent target : Int} (pos : 0 < mantissa)
  (targeted : Format.binary64.targetExponent (totalExponent mantissa exponent) = target)

include pos targeted

/-- A mantissa with bits to spare is rounded to itself. -/
theorem round_of_le (fits : target ≤ exponent) :
    Canonical (mantissa * 2 ^ (exponent - target).toNat) target ∧
      ∃ pos', UnpackedFloat.round Format.binary64 .positive mantissa exponent =
        .finite .positive (mantissa * 2 ^ (exponent - target).toNat) target pos' := by
  have lower := Nat.log2_self_le (Nat.ne_of_gt pos)
  have upper := Nat.lt_log2_self (n := mantissa)
  rw [targetExponent_eq, totalExponent] at targeted
  have least : -1074 ≤ target := by omega
  have lt : mantissa * 2 ^ (exponent - target).toNat < 2 ^ 53 := by
    calc mantissa * 2 ^ (exponent - target).toNat
        < 2 ^ (mantissa.log2 + 1) * 2 ^ (exponent - target).toNat :=
          Nat.mul_lt_mul_of_pos_right upper (by positivity)
      _ = 2 ^ (mantissa.log2 + 1 + (exponent - target).toNat) := (Nat.pow_add ..).symm
      _ ≤ 2 ^ 53 := Nat.pow_le_pow_right (by decide) (by omega)
  have normal : -1074 < target → 2 ^ 52 ≤ mantissa * 2 ^ (exponent - target).toNat := by
    intro above
    calc 2 ^ 52 ≤ 2 ^ (mantissa.log2 + (exponent - target).toNat) :=
          Nat.pow_le_pow_right (by decide) (by omega)
      _ = 2 ^ mantissa.log2 * 2 ^ (exponent - target).toNat := Nat.pow_add ..
      _ ≤ mantissa * 2 ^ (exponent - target).toNat := Nat.mul_le_mul_right _ lower
  have pos' : 0 < mantissa * 2 ^ (exponent - target).toNat := by positivity
  refine ⟨⟨pos', lt, least, normal⟩, pos', ?_⟩
  have landed : exponent - ((exponent - target).toNat : Int) = target := by omega
  rw [UnpackedFloat.round, targetExponent_eq, totalExponent, targeted]
  simp only [decreaseExponent, Nat.shiftLeft_eq, landed]
  exact roundWithAccuracy_eq (shiftToTargetExponent_of_lt lt least)
    (shiftToTargetExponent_of_lt lt least) pos'

/-- A mantissa with too many bits is cut down to 53, and then may be raised by
one. -/
theorem exists_round_of_lt (exceeds : exponent < target) (least : -1074 < target) :
    ∃ mantissa' exponent' pos',
      UnpackedFloat.round Format.binary64 .positive mantissa exponent =
        .finite .positive mantissa' exponent' pos' ∧
      Canonical mantissa' exponent' ∧
      NotAbove (mantissa / 2 ^ (target - exponent).toNat) target mantissa' exponent' := by
  have lower := Nat.log2_self_le (Nat.ne_of_gt pos)
  have upper := Nat.lt_log2_self (n := mantissa)
  have shifted : shiftToTargetExponent Format.binary64 mantissa exponent .exact =
      (ExtendedMantissa.mk mantissa false false >>> (target - exponent).toNat, target) := by
    have landed : exponent + ((target - exponent).toNat : Int) = target := by omega
    simp only [shiftToTargetExponent, targeted, shiftToExponent, landed]
    rfl
  generalize extended : ExtendedMantissa.mk mantissa false false >>> (target - exponent).toNat
    = first at shifted
  have kept : first.mantissa = mantissa / 2 ^ (target - exponent).toNat := by
    rw [← extended, mantissa_shiftRight]
  rw [targetExponent_eq, totalExponent] at targeted
  have normal : 2 ^ 52 ≤ first.mantissa := by
    rw [kept, Nat.le_div_iff_mul_le (by positivity), ← Nat.pow_add]
    calc 2 ^ (52 + (target - exponent).toNat) = 2 ^ mantissa.log2 := by congr 1; omega
      _ ≤ mantissa := lower
  have lt : first.mantissa < 2 ^ 53 := by
    rw [kept, Nat.div_lt_iff_lt_mul (by positivity), ← Nat.pow_add]
    calc mantissa < 2 ^ (mantissa.log2 + 1) := upper
      _ = 2 ^ (53 + (target - exponent).toNat) := by congr 1; omega
  have bounds := roundedMantissa_bounds first
  have unaligned : UnpackedFloat.round Format.binary64 .positive mantissa exponent =
      roundWithAccuracy Format.binary64 .positive mantissa exponent .exact := by
    have still : (exponent - target).toNat = 0 := by omega
    rw [UnpackedFloat.round, targetExponent_eq, totalExponent, targeted]
    simp only [decreaseExponent, still, Nat.shiftLeft_zero, Nat.cast_zero, Int.sub_zero]
  rw [unaligned, ← kept]
  by_cases fits : first.roundedMantissa < 2 ^ 53
  · have pos' : 0 < first.roundedMantissa := by omega
    exact ⟨first.roundedMantissa, target, pos',
      roundWithAccuracy_eq shifted (shiftToTargetExponent_of_lt fits (by omega)) pos',
      ⟨pos', fits, by omega, fun _ => by omega⟩, .inr ⟨rfl, bounds.1⟩⟩
  · -- Only a mantissa of ones can be raised so far.
    have full : first.roundedMantissa = 2 ^ 53 := by omega
    exact ⟨2 ^ 52, target + 1, by decide,
      roundWithAccuracy_eq shifted (full ▸ shiftToTargetExponent_carried (by omega)) (by decide),
      ⟨by decide, by decide, by omega, fun _ => Nat.le_refl _⟩, .inl (by omega)⟩

end Rounded

/-- A positive value is rounded to a number, and to none that is below a number
that the value has reached. -/
theorem exists_round {mantissa : Nat} {exponent : Int} (pos : 0 < mantissa)
    (least : -1074 ≤ exponent) :
    ∃ mantissa' exponent' pos',
      UnpackedFloat.round Format.binary64 .positive mantissa exponent =
        .finite .positive mantissa' exponent' pos' ∧
      Canonical mantissa' exponent' ∧
      ∀ part partExponent, Canonical part partExponent → exponent ≤ partExponent →
        part * 2 ^ (partExponent - exponent).toNat ≤ mantissa →
        NotAbove part partExponent mantissa' exponent' := by
  obtain ⟨target, targeted⟩ :
    ∃ target, Format.binary64.targetExponent (totalExponent mantissa exponent) = target := ⟨_, rfl⟩
  have chosen : max (mantissa.log2 + 1 + exponent - 53) (-1074) = target := targeted
  -- A number with a higher exponent than the result would be larger than the value.
  have partExponent_le : ∀ part partExponent, Canonical part partExponent →
      exponent ≤ partExponent → part * 2 ^ (partExponent - exponent).toNat ≤ mantissa →
      partExponent ≤ target := by
    intro part partExponent canonical aligned reached
    by_contra beyond
    have wide : 2 ^ (52 + (partExponent - exponent).toNat) ≤ mantissa := by
      rw [Nat.pow_add]
      exact (Nat.mul_le_mul_right _ (canonical.normal (by omega))).trans reached
    have := (Nat.le_log2 (Nat.ne_of_gt pos)).mpr wide
    omega
  rcases lt_or_ge exponent target with exceeds | fits
  · rcases exists_round_of_lt pos targeted exceeds (by omega) with
      ⟨mantissa', exponent', pos', rounded, canonical, raised⟩
    refine ⟨mantissa', exponent', pos', rounded, canonical, ?_⟩
    intro part partExponent partCanonical aligned reached
    have within := partExponent_le part partExponent partCanonical aligned reached
    rcases raised with carried | ⟨rfl, kept⟩
    · exact .inl (by omega)
    rcases Int.lt_or_eq_of_le within with below | rfl
    · exact .inl below
    · exact .inr ⟨rfl, ((Nat.le_div_iff_mul_le (by positivity)).mpr reached).trans kept⟩
  · rcases round_of_le pos targeted fits with ⟨canonical, pos', rounded⟩
    refine ⟨_, _, pos', rounded, canonical, ?_⟩
    intro part partExponent partCanonical aligned reached
    rcases Int.lt_or_eq_of_le (partExponent_le part partExponent partCanonical aligned reached)
      with below | rfl
    · exact .inl below
    · have same : partExponent = exponent := by omega
      subst same
      exact .inr ⟨rfl, by simpa using reached⟩

end Number
end LSystem
