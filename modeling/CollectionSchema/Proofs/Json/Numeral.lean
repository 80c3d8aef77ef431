import CollectionSchema.Json.Reader
import Mathlib.Algebra.Group.Int.Defs
import Mathlib.Algebra.Group.Nat.Defs
import Mathlib.Data.List.TakeWhile

/-!
# Integers are read as they are written

The decimal digits of an integer in range are read back as that integer, and nothing
more than they is read, when what follows them cannot go on with the number.
-/

set_option autoImplicit false

namespace CollectionSchema.Json

/-- Whether an integer fits into 64 bits: with a sign when it is negative, and without one
otherwise. -/
def InRange (value : Int) : Prop := -2 ^ 63 ≤ value ∧ value < 2 ^ 64

/-- Whether a text does not go on with a number in front of it. -/
def Delimited (text : List Char) : Prop :=
  ∀ next ∈ text.head?, next.isDigit = false ∧ next ≠ '.' ∧ next ≠ 'e' ∧ next ≠ 'E'

/-! ## Decimal digits -/

theorem digitsValue_toDigits (number : Nat) :
    Text.digitsValue (Nat.toDigits 10 number) = number :=
  (Nat.ofDigitChars_eq_foldl.symm.trans Nat.ofDigitChars_ten_toDigits)

theorem isDigit_of_mem_toDigits {number : Nat} {digit : Char}
    (member : digit ∈ Nat.toDigits 10 number) : digit.isDigit = true :=
  Nat.isDigit_of_mem_toDigits (by decide) (by decide) member

/-- Only zero is written with a zero in front. -/
theorem head_toDigits {number : Nat} (positive : 0 < number) :
    ∃ first others, Nat.toDigits 10 number = first :: others ∧ first ≠ '0' := by
  induction number using Nat.strongRecOn with
  | ind number shorter =>
      rcases Nat.lt_or_ge number 10 with one | more
      · refine ⟨_, [], Nat.toDigits_of_lt_base one, fun zero => ?_⟩
        have := Nat.digitChar_eq_zero.mp zero
        omega
      · obtain ⟨first, others, same, other⟩ := shorter (number / 10) (by omega) (by omega)
        rw [Nat.toDigits_of_base_le (by decide) more, same]
        exact ⟨first, others ++ [_], rfl, other⟩

/-! ## Reading them -/

namespace Numeral

variable {digits rest : List Char}

theorem digits_append (some : digits ≠ []) (each : ∀ digit ∈ digits, digit.isDigit = true)
    (apart : Delimited rest) : Numeral.digits (digits ++ rest) = .ok (digits, rest) := by
  have stops : rest.takeWhile Char.isDigit = [] ∧ rest.dropWhile Char.isDigit = rest := by
    rcases rest with _ | ⟨next, rest⟩
    · exact ⟨rfl, rfl⟩
    · have other := (apart next rfl).1
      exact ⟨List.takeWhile_cons_of_neg (by simp [other]),
        List.dropWhile_cons_of_neg (by simp [other])⟩
  obtain ⟨first, others, rfl⟩ := List.exists_cons_of_ne_nil some
  rw [Numeral.digits, List.takeWhile_append_of_pos each, List.dropWhile_append_of_pos each,
    stops.1, stops.2, List.append_nil]

theorem wholePart_append (number : Nat) (apart : Delimited rest) :
    wholePart (Nat.toDigits 10 number ++ rest) = .ok (Nat.toDigits 10 number, rest) := by
  rcases Nat.eq_zero_or_pos number with rfl | positive
  · have stops : (rest.head?.map Char.isDigit).getD false = false := by
      rcases rest with _ | ⟨next, rest⟩
      · rfl
      · exact (apart next rfl).1
    simp [Nat.toDigits_zero, wholePart, stops]
  · obtain ⟨first, others, same, other⟩ := head_toDigits positive
    have whole : Numeral.digits (Nat.toDigits 10 number ++ rest) =
        .ok (Nat.toDigits 10 number, rest) :=
      digits_append (by simp [same]) (fun _ member => isDigit_of_mem_toDigits member) apart
    rw [same] at whole ⊢
    rw [← whole, List.cons_append, wholePart]
    simp [other]

theorem fractionPart_of_delimited (apart : Delimited rest) :
    fractionPart rest = .ok (none, rest) := by
  rcases rest with _ | ⟨next, rest⟩
  · rfl
  · have other := (apart next rfl).2.1
    simp [fractionPart, other]

theorem exponentPart_of_delimited (apart : Delimited rest) :
    exponentPart rest = .ok (none, rest) := by
  rcases rest with _ | ⟨next, rest⟩
  · rfl
  · obtain ⟨_, _, lower, upper⟩ := apart next rfl
    simp [exponentPart, lower, upper]

theorem read_digits (number : Nat) (apart : Delimited rest) :
    Numeral.read (Nat.toDigits 10 number ++ rest) =
      .ok (⟨false, Nat.toDigits 10 number, none, none⟩, rest) := by
  have sign : signPart (Nat.toDigits 10 number ++ rest) =
      (false, Nat.toDigits 10 number ++ rest) := by
    have some : Nat.toDigits 10 number ≠ [] := Nat.toDigits_ne_nil
    obtain ⟨first, others, same⟩ := List.exists_cons_of_ne_nil some
    have member : first ∈ Nat.toDigits 10 number := by simp [same]
    have digit : first.isDigit = true := isDigit_of_mem_toDigits member
    have other : first ≠ '-' := by
      rintro rfl
      cases digit
    rw [same]
    simp [signPart, other]
  simp only [Numeral.read, sign, bind, Except.bind, wholePart_append number apart,
    fractionPart_of_delimited apart, exponentPart_of_delimited apart]
  rfl

theorem read_negative (number : Nat) (apart : Delimited rest) :
    Numeral.read ('-' :: Nat.toDigits 10 number ++ rest) =
      .ok (⟨true, Nat.toDigits 10 number, none, none⟩, rest) := by
  simp only [Numeral.read, List.cons_append, signPart, bind, Except.bind,
    wholePart_append number apart, fractionPart_of_delimited apart,
    exponentPart_of_delimited apart]
  rfl

theorem integer?_digits {number : Nat} (fits : number < 2 ^ 64) :
    Numeral.integer? ⟨false, Nat.toDigits 10 number, none, none⟩ = some (number : Int) := by
  simpa [Numeral.integer?, digitsValue_toDigits] using fits

theorem integer?_negative {number : Nat} (positive : 0 < number) (fits : number ≤ 2 ^ 63) :
    Numeral.integer? ⟨true, Nat.toDigits 10 number, none, none⟩ = some (-(number : Int)) := by
  have other : number ≠ 0 := Nat.ne_of_gt positive
  simpa [Numeral.integer?, digitsValue_toDigits, other] using fits

end Numeral

/-- An integer starts with a digit or with a minus. -/
theorem toString_head (value : Int) :
    ∃ first others, (toString value).toList = first :: others ∧
      (first = '-' ∨ first.isDigit = true) := by
  cases value with
  | ofNat number =>
      have some : Nat.toDigits 10 number ≠ [] := Nat.toDigits_ne_nil
      obtain ⟨first, others, same⟩ := List.exists_cons_of_ne_nil some
      exact ⟨first, others, Nat.toList_repr.trans same,
        .inr (isDigit_of_mem_toDigits (by rw [same]; exact List.mem_cons_self))⟩
  | negSucc number =>
      exact ⟨'-', (Nat.repr (number + 1)).toList, String.toList_append, .inl rfl⟩

/-- An integer in range is read as it is written. -/
theorem readNumber_toString {value : Int} (fits : InRange value) {rest : List Char}
    (apart : Delimited rest) :
    readNumber ((toString value).toList ++ rest) = (.integer value, some rest) := by
  cases value with
  | ofNat number =>
      have written : (toString (Int.ofNat number)).toList = Nat.toDigits 10 number :=
        Nat.toList_repr
      have small : number < 2 ^ 64 := Int.ofNat_lt.mp fits.2
      rw [readNumber, written, Numeral.read_digits number apart]
      simp only [Numeral.integer?_digits small]
      rfl
  | negSucc number =>
      have written : (toString (Int.negSucc number)).toList =
          '-' :: Nat.toDigits 10 (number + 1) := by
        show ("-" ++ Nat.repr (number + 1)).toList = _
        rw [String.toList_append, Nat.toList_repr]
        rfl
      have small : number + 1 ≤ 2 ^ 63 := by
        have := fits.1
        omega
      rw [readNumber, written, Numeral.read_negative (number + 1) apart]
      simp only [Numeral.integer?_negative (Nat.succ_pos number) small]
      rfl

end CollectionSchema.Json
