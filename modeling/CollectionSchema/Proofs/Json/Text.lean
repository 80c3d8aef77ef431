import CollectionSchema.Json.Printer
import CollectionSchema.Json.Reader

/-!
# Strings are read as they are written

A string writes each of its characters on its own, most of them as they are and the
others by an escape.  Reading takes one such piece at a time and gives the character
back, so the content of a string is read by induction on its characters.
-/

set_option autoImplicit false

namespace CollectionSchema.Json

/-! ## One character -/

/-- The digit for a number below sixteen has that number as its value. -/
theorem hexDigit?_digitChar {number : Nat} (small : number < 16) :
    Text.hexDigit? (Nat.digitChar number) = some number := by
  have each : ∀ number : Fin 16, Text.hexDigit? (Nat.digitChar number) = some number.val := by
    decide
  exact each ⟨number, small⟩

/-- The four digits of the code of a control character. -/
theorem hexQuad_control {code : Nat} (control : code < 0x20) (rest : List Char) :
    hexQuad ('0' :: '0' :: Nat.digitChar (code / 16) :: Nat.digitChar (code % 16) :: rest) =
      .ok (code, rest) := by
  have zero : Text.hexDigit? '0' = some 0 := by decide
  have whole : ((0 * 16 + 0) * 16 + code / 16) * 16 + code % 16 = code := by omega
  have first : Text.hexDigit? (Nat.digitChar (code / 16)) = some (code / 16) :=
    hexDigit?_digitChar (by omega)
  have second : Text.hexDigit? (Nat.digitChar (code % 16)) = some (code % 16) :=
    hexDigit?_digitChar (by omega)
  simp only [hexQuad, zero, first, second, whole]

/-- A control character is read back from its escape by code; no such code is a surrogate. -/
theorem escaped_control {character : Char} (control : character.toNat < 0x20)
    (rest : List Char) :
    escaped ('u' :: '0' :: '0' :: Nat.digitChar (character.toNat / 16) ::
      Nat.digitChar (character.toNat % 16) :: rest) = .ok (character, rest) := by
  have low : isLowSurrogate character.toNat = false := by
    simp only [isLowSurrogate, Bool.and_eq_false_iff, decide_eq_false_iff_not]
    omega
  have high : isHighSurrogate character.toNat = false := by
    simp only [isHighSurrogate, Bool.and_eq_false_iff, decide_eq_false_iff_not]
    omega
  simp only [escaped, codeEscape, hexQuad_control control, bind, Except.bind, low, high,
    Char.ofNat_toNat]
  rfl

/-- An escape is read as the character that it writes. -/
theorem stringContent_of_escaped {text rest : List Char} {character : Char}
    (read : escaped text = .ok (character, rest)) (bound : Nat) :
    stringContent (bound + 1) ('\\' :: text) =
      (stringContent bound rest).map fun found => (character :: found.1, found.2) := by
  have quote : ¬ '\\' = '"' := by decide
  rw [stringContent, if_neg quote, if_pos rfl, read]
  change (stringContent bound rest >>= fun found => pure (character :: found.1, found.2)) = _
  cases stringContent bound rest with
  | error failure => rfl
  | ok found => rfl

/-- A character that needs no escape is read as itself. -/
theorem stringContent_of_plain {character : Char} (quote : character ≠ '"')
    (backslash : character ≠ '\\') (control : ¬ character.toNat < 0x20) (bound : Nat)
    (rest : List Char) :
    stringContent (bound + 1) (character :: rest) =
      (stringContent bound rest).map fun found => (character :: found.1, found.2) := by
  rw [stringContent, if_neg quote, if_neg backslash, if_neg control]
  cases stringContent bound rest with
  | error failure => rfl
  | ok found => rfl

/-- How a character is written: by a letter behind a backslash, by its code, or as it is. -/
theorem escape_cases (character : Char) :
    (∃ letter, letter ≠ 'u' ∧ shortEscape? letter = some character ∧
      escape character = ['\\', letter]) ∨
    (character.toNat < 0x20 ∧ escape character = controlEscape character) ∨
    (character ≠ '"' ∧ character ≠ '\\' ∧ ¬ character.toNat < 0x20 ∧
      escape character = [character]) := by
  unfold escape
  split
  case isTrue same => exact .inl ⟨'"', by decide, by rw [same]; rfl, rfl⟩
  case isFalse quote =>
    split
    case isTrue same => exact .inl ⟨'\\', by decide, by rw [same]; rfl, rfl⟩
    case isFalse backslash =>
      split
      case isTrue same => exact .inl ⟨'n', by decide, by rw [same]; rfl, rfl⟩
      split
      case isTrue same => exact .inl ⟨'r', by decide, by rw [same]; rfl, rfl⟩
      split
      case isTrue same => exact .inl ⟨'t', by decide, by rw [same]; rfl, rfl⟩
      split
      case isTrue same => exact .inl ⟨'b', by decide, by rw [same]; rfl, rfl⟩
      split
      case isTrue same => exact .inl ⟨'f', by decide, by rw [same]; rfl, rfl⟩
      split
      case isTrue control => exact .inr (.inl ⟨control, rfl⟩)
      case isFalse control => exact .inr (.inr ⟨quote, backslash, control, rfl⟩)

/-- What a string writes for one character is read as that character. -/
theorem stringContent_escape (bound : Nat) (character : Char) (rest : List Char) :
    stringContent (bound + 1) (escape character ++ rest) =
      (stringContent bound rest).map fun found => (character :: found.1, found.2) := by
  rcases escape_cases character with
    ⟨letter, other, stands, written⟩ | ⟨control, written⟩ | ⟨quote, backslash, control, written⟩
  · rw [written]
    have read : escaped (letter :: rest) = .ok (character, rest) := by
      rw [escaped, if_neg other, stands]
    exact stringContent_of_escaped read bound
  · rw [written]
    exact stringContent_of_escaped (escaped_control control rest) bound
  · rw [written]
    exact stringContent_of_plain quote backslash control bound rest

/-! ## A whole string -/

/-- The content of a string up to its last quote. -/
theorem stringContent_flatMap_escape (content rest : List Char) {bound : Nat}
    (enough : content.length < bound) :
    stringContent bound (content.flatMap escape ++ '"' :: rest) = .ok (content, rest) := by
  induction content generalizing bound with
  | nil =>
      obtain ⟨bound, rfl⟩ := Nat.exists_eq_succ_of_ne_zero (Nat.ne_of_gt enough)
      rfl
  | cons character content ih =>
      obtain ⟨bound, rfl⟩ := Nat.exists_eq_succ_of_ne_zero (Nat.ne_of_gt (Nat.zero_lt_of_lt enough))
      rw [List.flatMap_cons, List.append_assoc, stringContent_escape,
        ih (Nat.lt_of_succ_lt_succ enough)]
      rfl

/-- No character is written by nothing. -/
theorem length_le_flatMap_escape (content : List Char) :
    content.length ≤ (content.flatMap escape).length := by
  induction content with
  | nil => exact Nat.le_refl _
  | cons character content ih =>
      have some : 0 < (escape character).length := by
        rcases escape_cases character with ⟨_, _, _, written⟩ | ⟨_, written⟩ | ⟨_, _, _, written⟩
        · simp [written]
        · simp [written, controlEscape]
        · simp [written]
      rw [List.flatMap_cons, List.length_append, List.length_cons]
      omega

/-- A string is read as it is written, behind its first quote. -/
theorem readString_flatMap_escape (text : String) (rest : List Char) :
    readString (text.toList.flatMap escape ++ '"' :: rest) = (.string text, some rest) := by
  have enough := length_le_flatMap_escape text.toList
  rw [readString, stringContent_flatMap_escape text.toList rest (by
    rw [List.length_append]
    omega)]
  simp only [String.ofList_toList]

end CollectionSchema.Json
