import LSystem.Symbol
import Mathlib.Data.List.Sort

namespace LSystem

/-!
# Symbols as bytes

Symbols are compared character by character.  A table that is sorted by the bytes
of their texts is sorted in the same way: UTF-8 spells a later character by bytes
that come later in dictionary order, already where the two spellings first differ.
-/

/-! ## Characters -/

/-- The order of two characters is that of their spellings, whatever follows them. -/
theorem utf8EncodeChar_append_lt {first second : Char} (less : first < second)
    (rest others : List UInt8) :
    String.utf8EncodeChar first ++ rest < String.utf8EncodeChar second ++ others := by
  have below : first.val.toNat < second.val.toNat := less
  have bounded : second.val.toNat < 0x110000 := by
    rcases second.valid with low | ⟨-, high⟩
    · omega
    · exact high
  -- Spellings of the same length differ in some byte, and a longer one starts higher.
  unfold String.utf8EncodeChar
  generalize first.val.toNat = code at below ⊢
  generalize second.val.toNat = later at below bounded ⊢
  dsimp only
  split_ifs <;>
    simp only [List.cons_append, List.nil_append, List.cons_lt_cons_iff, UInt8.lt_iff_toNat_lt,
      ← UInt8.toNat_inj, UInt8.toNat_ofNat'] <;>
    simp (disch := omega) only [Nat.mod_eq_of_lt] <;>
    omega

/-! ## Texts -/

theorem flatMap_utf8EncodeChar_lt {first second : List Char} (less : first < second) :
    first.flatMap String.utf8EncodeChar < second.flatMap String.utf8EncodeChar := by
  induction less with
  | @nil character rest =>
      have spelled : String.utf8EncodeChar character ≠ [] := by
        unfold String.utf8EncodeChar
        dsimp only
        split_ifs <;> exact List.cons_ne_nil _ _
      rcases List.exists_cons_of_ne_nil spelled with ⟨byte, bytes, spelling⟩
      rw [List.flatMap_nil, List.flatMap_cons, spelling]
      exact .nil
  | rel less =>
      rw [List.flatMap_cons, List.flatMap_cons]
      exact utf8EncodeChar_append_lt less _ _
  | cons _ inductionHypothesis =>
      rw [List.flatMap_cons, List.flatMap_cons]
      exact List.append_left_lt inductionHypothesis

namespace Symbol

/-- The bytes of the text in UTF-8. -/
def bytes (symbol : Symbol) : List UInt8 := symbol.text.toByteArray.data.toList

theorem bytes_eq (symbol : Symbol) :
    symbol.bytes = symbol.text.toList.flatMap String.utf8EncodeChar := by
  have spelled : symbol.text.toByteArray = symbol.text.toList.utf8Encode := by
    rw [← String.toByteArray_ofList, String.ofList_toList]
  rw [bytes, spelled, List.utf8Encode]
  exact List.toList_data_toByteArray

/-- Symbols are ordered as their bytes are. -/
theorem bytes_lt_bytes_iff {left right : Symbol} :
    left.bytes < right.bytes ↔ left.text < right.text := by
  have keeps {first second : Symbol} (less : first.text < second.text) :
      first.bytes < second.bytes := by
    rw [bytes_eq, bytes_eq]
    exact flatMap_utf8EncodeChar_lt less
  refine ⟨fun less => ?_, keeps⟩
  by_contra notBefore
  by_cases after : right.text < left.text
  · exact List.lt_asymm less (keeps after)
  · have same := String.le_antisymm (String.not_lt.mp after) (String.not_lt.mp notBefore)
    rw [bytes, bytes, same] at less
    exact List.lt_irrefl _ less

end Symbol
end LSystem
