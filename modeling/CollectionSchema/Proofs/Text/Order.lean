import Mathlib.Data.List.Basic
import Mathlib.Order.Basic

/-!
# The order of texts

Texts are compared by the numbers of their characters, one after the other.  In UTF-8
a character with a greater number has greater bytes, whether it takes as many of them
as the other one or more.  So the order of texts is the order of their bytes.
-/

set_option autoImplicit false

namespace CollectionSchema.Text

/-- The bytes of a text in UTF-8. -/
def bytes (text : String) : List UInt8 := text.toUTF8.data.toList

theorem bytes_eq_flatMap (text : String) :
    bytes text = text.toList.flatMap String.utf8EncodeChar := by
  rw [bytes, String.toUTF8_eq_toByteArray, ← String.utf8Encode_toList, List.utf8Encode]
  simp

/-- The bytes of a character decide before anything behind them is looked at. -/
theorem encode_lt {first second : Char} (less : first < second) (front behind : List UInt8) :
    String.utf8EncodeChar first ++ front < String.utf8EncodeChar second ++ behind := by
  have smaller : first.val.toNat < second.val.toNat := less
  have bound : second.val.toNat < 1114112 := by
    have valid := second.valid
    simp only [UInt32.isValidChar, Nat.isValidChar] at valid
    omega
  simp only [String.utf8EncodeChar]
  -- One case for each pair of sizes; the numbers are compared digit by digit to the base of 64.
  split_ifs <;>
    simp (disch := omega) only [List.cons_append, List.nil_append, List.cons_lt_cons_iff,
      UInt8.lt_iff_toNat_lt, ← UInt8.toNat_inj, UInt8.toNat_ofNat', Nat.reducePow,
      Nat.mod_eq_of_lt] <;>
    omega

theorem flatMap_encode_lt {first second : List Char} (less : first < second) :
    first.flatMap String.utf8EncodeChar < second.flatMap String.utf8EncodeChar := by
  induction less with
  | @nil character rest =>
      obtain ⟨lead, others, same⟩ := List.exists_cons_of_ne_nil
        (@String.utf8EncodeChar_ne_nil character)
      rw [List.flatMap_nil, List.flatMap_cons, same]
      exact List.nil_lt_cons _ _
  | rel less =>
      rw [List.flatMap_cons, List.flatMap_cons]
      exact encode_lt less _ _
  | cons _ ih =>
      rw [List.flatMap_cons, List.flatMap_cons]
      exact List.append_left_lt ih

theorem bytes_lt {first second : String} (less : first < second) : bytes first < bytes second := by
  rw [bytes_eq_flatMap, bytes_eq_flatMap]
  exact flatMap_encode_lt less

theorem bytes_lt_iff {first second : String} : bytes first < bytes second ↔ first < second := by
  refine ⟨fun less => ?_, bytes_lt⟩
  by_contra notLess
  by_cases before : second < first
  · exact List.lt_asymm less (bytes_lt before)
  · have same : first = second :=
      String.le_antisymm (String.not_lt.mp before) (String.not_lt.mp notLess)
    exact List.lt_irrefl _ (same ▸ less)

end CollectionSchema.Text
