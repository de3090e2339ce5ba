import LSystem.Proofs.Number.Order
import LSystem.Proofs.Number.Rounding
import Mathlib

namespace LSystem
namespace Number

/-!
# Addition

A sum is the exact sum, rounded and stored.  Main statements: adding a number
that is not negative never leads below, and adding a zero leads nowhere.
-/

open Float.Model (UnpackedFloat Format)
open Float.Model.UnpackedFloat

/-! ## Storing a number -/

/-- A stored number that is finite is canonical. -/
theorem canonical_of_unpack {bits : BitVec Format.binary64.numBits} {sign : Sign} {mantissa : Nat}
    {exponent : Int} {pos : 0 < mantissa}
    (unpacked : unpack Format.binary64 bits = .finite sign mantissa exponent pos) :
    Canonical mantissa exponent := by
  have bias : (Format.binary64.exponentBias + Format.binary64.mantissaBitsWithoutImplicit : Int) =
    1075 := rfl
  have bound : (unpackMantissa bits).toNat < 2 ^ 52 := (unpackMantissa bits).isLt
  have hidden : (1#1 ++ unpackMantissa bits).toNat = 2 ^ 52 + (unpackMantissa bits).toNat := by
    rw [BitVec.toNat_append, ← Nat.shiftLeft_add_eq_or_of_lt bound]
    rfl
  rw [unpack] at unpacked
  split at unpacked
  · split at unpacked <;> cases unpacked
  split at unpacked
  · next subnormal =>
      split at unpacked
      · cases unpacked
      · cases unpacked
        have least : ((unpackExponent bits).toNat : Int) = 0 := by rw [subnormal]; rfl
        exact ⟨pos, by omega, by omega, by omega⟩
  · next normal =>
      cases unpacked
      have above : (unpackExponent bits).toNat ≠ 0 := fun zero =>
        normal (BitVec.eq_of_toNat_eq zero)
      exact ⟨pos, by omega, by omega, fun _ => by omega⟩

theorem unpack_normal {exponent : BitVec 11} {mantissa : BitVec 52} (notLeast : exponent ≠ 0#11)
    (notGreatest : exponent ≠ -1#11) (pos : 0 < 2 ^ 52 + mantissa.toNat) :
    unpack Format.binary64 (packComponents Format.binary64 .positive exponent mantissa) =
      .finite .positive (2 ^ 52 + mantissa.toNat) (exponent.toNat - 1075) pos := by
  have hidden : (1#1 ++ mantissa).toNat = 2 ^ 52 + mantissa.toNat := by
    rw [BitVec.toNat_append, ← Nat.shiftLeft_add_eq_or_of_lt mantissa.isLt]
    rfl
  rw [unpack]
  simp only [unpackExponent_packComponents, unpackMantissa_packComponents,
    unpackSign_packComponents, if_neg notLeast, if_neg notGreatest, hidden]
  rfl

theorem unpack_subnormal {mantissa : BitVec 52} (pos : 0 < mantissa.toNat) :
    unpack Format.binary64 (packComponents Format.binary64 .positive 0#11 mantissa) =
      .finite .positive mantissa.toNat (-1074) pos := by
  have nonzero : mantissa ≠ 0#52 := by
    rintro rfl
    exact absurd pos (by decide)
  have notGreatest : (0#11 : BitVec 11) ≠ -1#11 := by decide
  rw [unpack]
  simp only [unpackExponent_packComponents, unpackMantissa_packComponents,
    unpackSign_packComponents, if_neg notGreatest, dif_neg nonzero]
  rfl

/-- A positive canonical number is stored as it is, or else it is too large and
becomes infinite. -/
theorem unpack_pack_of_canonical {mantissa : Nat} {exponent : Int}
    (canonical : Canonical mantissa exponent) :
    unpack Format.binary64 (pack Format.binary64 (.finite .positive mantissa exponent canonical.pos)) =
        .finite .positive mantissa exponent canonical.pos ∨
      unpack Format.binary64
          (pack Format.binary64 (.finite .positive mantissa exponent canonical.pos)) =
        .infinity .positive := by
  have pos := canonical.pos
  have lt := canonical.lt
  have least := canonical.least_le
  rw [pack]
  dsimp only
  split
  · exact .inr rfl
  next bounded =>
  refine .inl ?_
  have biased : (exponent + Format.binary64.exponentBias +
      Format.binary64.mantissaBitsWithoutImplicit).toNat = (exponent + 1075).toNat := by
    change (exponent + 1023 + 52).toNat = _
    omega
  rw [biased] at bounded ⊢
  change ¬ 2048 ≤ _ at bounded
  split
  · next normal =>
      change mantissa.log2 + 1 = 53 at normal
      have bits := (Nat.log2_eq_iff (Nat.ne_of_gt pos)).mp (Nat.succ.inj normal)
      have mantissaField : (BitVec.ofNat 52 mantissa).toNat = mantissa - 2 ^ 52 := by
        rw [BitVec.toNat_ofNat]
        omega
      have exponentField :
          (BitVec.ofNat 11 (exponent + 1075).toNat).toNat = (exponent + 1075).toNat := by
        rw [BitVec.toNat_ofNat]
        omega
      have inside : ∀ field : BitVec 11, field.toNat = 0 ∨ field.toNat = 2047 →
          BitVec.ofNat 11 (exponent + 1075).toNat ≠ field := by
        rintro field extreme rfl
        omega
      refine (unpack_normal (inside _ (.inl rfl)) (inside _ (.inr rfl)) (by omega)).trans ?_
      simp only [mantissaField, exponentField, UnpackedFloat.finite.injEq, true_and]
      omega
  · next subnormal =>
      have small : mantissa < 2 ^ 52 := by
        by_contra large
        exact subnormal
          (congrArg Nat.succ ((Nat.log2_eq_iff (Nat.ne_of_gt pos)).mpr ⟨by omega, by omega⟩))
      have least : exponent = -1074 := by
        by_contra other
        exact absurd (canonical.normal (by omega)) (by omega)
      have mantissaField : (BitVec.ofNat 52 mantissa).toNat = mantissa := by
        rw [BitVec.toNat_ofNat]
        omega
      refine (unpack_subnormal (by omega)).trans ?_
      simp only [mantissaField, least]

theorem pack_unpack_toModel (number : Float) :
    Float.Model.pack number.toModel.unpack = number.toModel := by
  obtain ⟨⟨bits, valid⟩⟩ := number
  have stored := UnpackedFloat.pack_unpack_of_valid valid
  simp only [Float.Model.pack, Float.Model.unpack, stored]

/-! ## Numbers that are not negative -/

section Nonnegative

variable {number : Float}

theorem height?_of_zero {sign : Sign} (unpacked : number.toModel.unpack = .zero sign) :
    height? number = some (.of 0 0 0) := by
  rw [height?, unpacked, Height.ofUnpacked?]

theorem height?_of_infinity (unpacked : number.toModel.unpack = .infinity .positive) :
    height? number = some (.of 2 0 0) := by
  rw [height?, unpacked, Height.ofUnpacked?]

theorem height?_of_finite {mantissa : Nat} {exponent : Int} {pos : 0 < mantissa}
    (unpacked : number.toModel.unpack = .finite .positive mantissa exponent pos) :
    height? number = some (.of 1 exponent mantissa) := by
  rw [height?, unpacked, Height.ofUnpacked?]

theorem nonnegative_iff : 0.0 ≤ number ↔
    (∃ sign, number.toModel.unpack = .zero sign) ∨
    number.toModel.unpack = .infinity .positive ∨
    ∃ mantissa exponent pos, number.toModel.unpack = .finite .positive mantissa exponent pos := by
  have zero : height? 0.0 = some (.of 0 0 0) := rfl
  rw [le_iff, zero, height?]
  rcases number.toModel.unpack with (_ | _) | _ | _ | ⟨_ | _, mantissa, exponent, pos⟩ <;>
    simp [Height.ofUnpacked?, Height.of_le_of]
  exact pos

theorem exists_zero_of_beq (zero : (number == 0.0) = true) :
    ∃ sign, number.toModel.unpack = .zero sign := by
  rcases beq_iff.mp zero with ⟨height, found, same⟩
  have level : height? number = some (.of 0 0 0) := found.trans same.symm
  rcases nonnegative_iff.mp (le_of_beq (beq_symm zero)) with
    zero | infinite | ⟨mantissa, exponent, pos, finite⟩
  · exact zero
  · rw [height?_of_infinity infinite] at level
    simp [Height.of] at level
  · rw [height?_of_finite finite] at level
    simp [Height.of] at level

/-- Nothing is above infinity. -/
theorem le_of_infinity {infinite : Float} (nonnegative : 0.0 ≤ number)
    (top : infinite.toModel.unpack = .infinity .positive) : number ≤ infinite := by
  rw [le_iff, height?_of_infinity top]
  rcases nonnegative_iff.mp nonnegative with
    ⟨sign, zero⟩ | infinite | ⟨mantissa, exponent, pos, finite⟩
  · exact ⟨_, _, height?_of_zero zero, rfl, Height.of_le_of.mpr (.inl (by decide))⟩
  · exact ⟨_, _, height?_of_infinity infinite, rfl, le_rfl⟩
  · exact ⟨_, _, height?_of_finite finite, rfl, Height.of_le_of.mpr (.inl (by decide))⟩

end Nonnegative

/-! ## Sums -/

section Sums

variable {first second : Float}

theorem unpack_add (first second : Float) :
    (first + second).toModel.unpack =
      (Float.Model.pack (UnpackedFloat.add .binary64 first.toModel.unpack
        second.toModel.unpack)).unpack := rfl

theorem height?_add_zero {sign : Sign} (zero : second.toModel.unpack = .zero sign) :
    height? (first + second) = height? first := by
  have stored : ∀ sum, sum = first.toModel.unpack →
      Height.ofUnpacked? (Float.Model.pack sum).unpack = height? first := by
    rintro sum rfl
    rw [pack_unpack_toModel, height?]
  rw [height?, unpack_add, zero]
  cases unpacked : first.toModel.unpack with
  | zero sign' =>
      rw [height?, unpacked]
      cases sign' <;> cases sign <;> rfl
  | _ => exact stored _ unpacked.symm

theorem height?_zero_add {sign : Sign} (zero : first.toModel.unpack = .zero sign) :
    height? (first + second) = height? second := by
  have stored : ∀ sum, sum = second.toModel.unpack →
      Height.ofUnpacked? (Float.Model.pack sum).unpack = height? second := by
    rintro sum rfl
    rw [pack_unpack_toModel, height?]
  rw [height?, unpack_add, zero]
  cases unpacked : second.toModel.unpack with
  | zero sign' =>
      rw [height?, unpacked]
      cases sign' <;> cases sign <;> rfl
  | _ => exact stored _ unpacked.symm

theorem normalize_of_pos {mantissa : Nat} (exponent : Int) (pos : 0 < mantissa) :
    UnpackedFloat.normalize .binary64 mantissa exponent .positive =
      UnpackedFloat.round .binary64 .positive mantissa exponent := by
  rw [UnpackedFloat.normalize, compare_gt_iff_gt.mpr (Int.natCast_pos.mpr pos)]
  rfl

/-- The exact sum of two positive numbers reaches the first of them. -/
theorem exists_add_of_canonical {mantissa mantissa' : Nat} {exponent exponent' : Int}
    (canonical : Canonical mantissa exponent) (canonical' : Canonical mantissa' exponent') :
    ∃ sum sumExponent, ∃ sumCanonical : Canonical sum sumExponent,
      UnpackedFloat.add .binary64 (.finite .positive mantissa exponent canonical.pos)
          (.finite .positive mantissa' exponent' canonical'.pos) =
        .finite .positive sum sumExponent sumCanonical.pos ∧
      NotAbove mantissa exponent sum sumExponent := by
  have pos : 0 < mantissa * 2 ^ (exponent - min exponent exponent').toNat +
      mantissa' * 2 ^ (exponent' - min exponent exponent').toNat :=
    Nat.add_pos_left (Nat.mul_pos canonical.pos (by positivity)) _
  have least := canonical.least_le
  have least' := canonical'.least_le
  rcases exists_round pos (show -1074 ≤ min exponent exponent' by omega) with
    ⟨sum, sumExponent, _, rounded, sumCanonical, reaches⟩
  refine ⟨sum, sumExponent, sumCanonical, ?_,
    reaches mantissa exponent canonical (by omega) (Nat.le_add_right ..)⟩
  rw [← rounded, ← normalize_of_pos _ pos]
  simp only [UnpackedFloat.add, decreaseExponent, Nat.shiftLeft_eq, Sign.apply, ← Int.natCast_add]

/-- Adding a number that is not negative never leads below. -/
theorem le_add (nonnegative : 0.0 ≤ first) (nonnegative' : 0.0 ≤ second) :
    first ≤ first + second := by
  rcases nonnegative_iff.mp nonnegative with
    ⟨sign, left⟩ | left | ⟨mantissa, exponent, pos, left⟩
  · rw [le_iff, height?_zero_add left, height?_of_zero left]
    exact le_iff.mp nonnegative'
  all_goals
    rcases nonnegative_iff.mp nonnegative' with
      ⟨sign, right⟩ | right | ⟨mantissa', exponent', pos', right⟩
  · rw [le_iff, height?_add_zero right]
    exact le_iff.mp (le_self_of_le nonnegative)
  · exact le_of_infinity nonnegative (by rw [unpack_add, left, right]; rfl)
  · exact le_of_infinity nonnegative (by simp only [unpack_add, left, right, UnpackedFloat.add]; rfl)
  · rw [le_iff, height?_add_zero right]
    exact le_iff.mp (le_self_of_le nonnegative)
  · exact le_of_infinity nonnegative (by simp only [unpack_add, left, right, UnpackedFloat.add]; rfl)
  · rcases exists_add_of_canonical (canonical_of_unpack left) (canonical_of_unpack right) with
      ⟨sum, sumExponent, canonical, added, reached⟩
    have stored : (first + second).toModel.unpack = unpack Format.binary64
        (pack Format.binary64 (.finite .positive sum sumExponent canonical.pos)) := by
      rw [← added, ← left, ← right]
      rfl
    rcases unpack_pack_of_canonical canonical with kept | overflowed
    · refine le_iff.mpr ⟨_, _, height?_of_finite left, height?_of_finite (stored.trans kept),
        Height.of_le_of.mpr (.inr ⟨rfl, ?_⟩)⟩
      unfold NotAbove at reached
      omega
    · exact le_of_infinity nonnegative (stored.trans overflowed)

/-- Adding a zero of either sign leads to the same number. -/
theorem add_beq_of_beq_zero (isNumber : first ≤ first) (zero : (second == 0.0) = true) :
    (first + second == first) = true := by
  rcases exists_zero_of_beq zero with ⟨sign, unpacked⟩
  rcases le_iff.mp isNumber with ⟨height, -, found, -, -⟩
  exact beq_iff.mpr ⟨height, (height?_add_zero unpacked).trans found, found⟩

end Sums
end Number
end LSystem
