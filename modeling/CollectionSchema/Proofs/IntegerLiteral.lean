import CollectionSchema.Grammar.Expression
import CollectionSchema.Proofs.Json.Numeral
import CollectionSchema.Proofs.Rule.Algebra
import CollectionSchema.Proofs.Token.Lexeme
import Mathlib.Data.Nat.Digits.Defs

/-!
# Integers in a text

An integer is written with decimal digits, with a sign in front of them or without, and
with as many leading zeros as one likes.  A number token is a value just when it writes
an integer that fits into 64 bits, and then its value is that integer.  A token with a
dot, or with an integer that is too large or too small, is no value, and no other
alternative takes it.

In the other direction, the decimal text of an integer is a single token, with its sign,
and that token is a value.
-/

set_option autoImplicit false

namespace CollectionSchema

/-! ## What a text writes -/

namespace Text

/-- The number that a row of decimal digits writes, the digit for the ones last. -/
def positional (digits : List Char) : Nat := Nat.ofDigits 10 (digits.map digitValue).reverse

/-- The integer that a text writes: decimal digits, at least one of them, behind a sign or
without. -/
inductive WritesInteger : List Char → Int → Prop
  | unsigned {digits : List Char} (some : digits ≠ [])
      (numeric : ∀ digit ∈ digits, digit.isDigit = true) : WritesInteger digits (positional digits)
  | plus {digits : List Char} (some : digits ≠ [])
      (numeric : ∀ digit ∈ digits, digit.isDigit = true) :
      WritesInteger ('+' :: digits) (positional digits)
  | minus {digits : List Char} (some : digits ≠ [])
      (numeric : ∀ digit ∈ digits, digit.isDigit = true) :
      WritesInteger ('-' :: digits) (-positional digits)

theorem digitsValue_eq (digits : List Char) : digitsValue digits = positional digits := by
  rw [positional, Nat.ofDigits_eq_foldr, List.foldr_reverse, List.foldl_map, digitsValue]
  refine congrArg (fun step => digits.foldl step 0) ?_
  funext value digit
  rw [Nat.add_comm]
  rfl

theorem natural?_eq_some_iff {digits : List Char} {value : Nat} :
    natural? digits = some value ↔
      digits ≠ [] ∧ (∀ digit ∈ digits, digit.isDigit = true) ∧ positional digits = value := by
  rw [← List.all_eq_true, ← and_assoc, natural?, digitsValue_eq, Option.ite_none_right_eq_some,
    Option.some_inj]

theorem integer?_plus (digits : List Char) :
    integer? ('+' :: digits) = (natural? digits).map Int.ofNat := by
  rw [integer?]
  cases natural? digits <;> rfl

theorem integer?_minus (digits : List Char) :
    integer? ('-' :: digits) = (natural? digits).map (-Int.ofNat ·) := by
  rw [integer?]
  cases natural? digits <;> rfl

theorem integer?_unsigned {text : List Char} (noPlus : ∀ digits, text ≠ '+' :: digits)
    (noMinus : ∀ digits, text ≠ '-' :: digits) :
    integer? text = (natural? text).map Int.ofNat := by
  rw [integer?.eq_3 text noPlus noMinus]
  cases natural? text <;> rfl

/-- A text is read as the integer that it writes. -/
theorem integer?_eq_some_iff {text : List Char} {value : Int} :
    integer? text = some value ↔ WritesInteger text value := by
  constructor
  · intro read
    by_cases plus : ∃ digits, text = '+' :: digits
    · obtain ⟨digits, rfl⟩ := plus
      obtain ⟨_, natural, rfl⟩ := Option.map_eq_some_iff.mp ((integer?_plus digits).symm.trans read)
      obtain ⟨some, numeric, rfl⟩ := natural?_eq_some_iff.mp natural
      exact .plus some numeric
    by_cases minus : ∃ digits, text = '-' :: digits
    · obtain ⟨digits, rfl⟩ := minus
      obtain ⟨_, natural, rfl⟩ :=
        Option.map_eq_some_iff.mp ((integer?_minus digits).symm.trans read)
      obtain ⟨some, numeric, rfl⟩ := natural?_eq_some_iff.mp natural
      exact .minus some numeric
    rw [integer?_unsigned (not_exists.mp plus) (not_exists.mp minus)] at read
    obtain ⟨_, natural, rfl⟩ := Option.map_eq_some_iff.mp read
    obtain ⟨some, numeric, rfl⟩ := natural?_eq_some_iff.mp natural
    exact .unsigned some numeric
  · intro writes
    cases writes with
    | @plus digits some numeric =>
        rw [integer?_plus, natural?_eq_some_iff.mpr ⟨some, numeric, rfl⟩]
        rfl
    | @minus digits some numeric =>
        rw [integer?_minus, natural?_eq_some_iff.mpr ⟨some, numeric, rfl⟩]
        rfl
    | unsigned some numeric =>
        have noSign : ∀ sign digits, sign.isDigit = false → text ≠ sign :: digits := by
          rintro sign digits other rfl
          rw [numeric sign List.mem_cons_self] at other
          cases other
        rw [integer?_unsigned (noSign '+' · rfl) (noSign '-' · rfl),
          natural?_eq_some_iff.mpr ⟨some, numeric, rfl⟩]
        rfl

theorem fitsInteger64_iff {value : Int} :
    fitsInteger64 value = true ↔ -2 ^ 63 ≤ value ∧ value ≤ 2 ^ 63 - 1 := by
  rw [fitsInteger64, Bool.and_eq_true, decide_eq_true_eq, decide_eq_true_eq]
  rfl

/-- A text is read as an integer in 64 bits just when it writes an integer in the range of these. -/
theorem integer64?_eq_some_iff {text : List Char} {value : Int64} :
    integer64? text = some value ↔
      ∃ written, WritesInteger text written ∧ -2 ^ 63 ≤ written ∧ written ≤ 2 ^ 63 - 1 ∧
        value.toInt = written := by
  rw [integer64?]
  constructor
  · intro read
    split at read
    case h_2 => cases read
    case h_1 written writes =>
      obtain ⟨fits, same⟩ := Option.ite_none_right_eq_some.mp read
      obtain ⟨lower, upper⟩ := fitsInteger64_iff.mp fits
      refine ⟨written, integer?_eq_some_iff.mp writes, lower, upper, ?_⟩
      rw [← Option.some.inj same]
      exact Int64.toInt_ofInt_of_le lower (Int.lt_of_le_sub_one upper)
  · rintro ⟨_, writes, lower, upper, rfl⟩
    rw [integer?_eq_some_iff.mpr writes]
    dsimp only
    rw [if_pos (fitsInteger64_iff.mpr ⟨lower, upper⟩), Int64.ofInt_toInt]

end Text

/-! ## Number tokens as values -/

namespace Grammar

theorem integer_number {token : Token} (kind : token.kind = .number) (rest : List Token) :
    (integer (token :: rest)).found =
      (Text.integer64? token.lexeme.toList).map fun value => (value, 1) := by
  rw [integer, if_pos kind]
  cases Text.integer64? token.lexeme.toList <;> rfl

/-- What asks for another token finds none at a number token. -/
theorem accept_missed {α : Type} {name : RuleName} {expected : List Expectation}
    {read : Token → Option α} {token : Token} (unread : read token = none) (rest : List Token) :
    (Rule.accept name expected read (token :: rest)).found = none := by
  simp [Rule.accept, unread]

theorem found_bind_of_missed {α β : Type} (first : Rule α) {second : α → Rule β}
    {tokens : List Token} (missed : (first tokens).found = none) :
    ((first >>= second) tokens).found = none := by
  rcases reply : first tokens with ⟨misses, found⟩
  rw [reply] at missed
  subst missed
  rw [Rule.bind_of_missed reply]

theorem found_oneOf {α : Type} (first : Rule α) (others : List (Rule α)) (tokens : List Token) :
    (Rule.oneOf (first :: others) tokens).found =
      (first tokens).found.or (Rule.oneOf others tokens).found := by
  rcases reply : first tokens with ⟨misses, _ | result⟩
  · rw [Rule.oneOf_of_missed reply]
    rfl
  · rw [Rule.oneOf_of_found reply]
    rfl

/-- At a number token, a value is the integer that the token writes in 64 bits, or there is none. -/
theorem valueOf_number (expression : Rule Expression) {token : Token} (kind : token.kind = .number)
    (rest : List Token) :
    (valueOf expression (token :: rest)).found =
      (Text.integer64? token.lexeme.toList).map fun value => (.number token.position value, 1) := by
  have isMark : ∀ character, token.isSymbol character = false := by simp [Token.isSymbol, kind]
  have isWord : ∀ spelling, token.isWord spelling = false := by simp [Token.isWord, kind]
  rw [valueOf, Rule.here_bind_apply]
  simp only [List.head?_cons, Option.map_some, Option.getD_some, found_oneOf]
  -- Every alternative but the first asks for a token of another kind.
  rw [found_bind_of_missed string (accept_missed (by simp [kind]) rest),
    found_bind_of_missed boolean (accept_missed (by simp [isWord]) rest),
    found_bind_of_missed (Rule.identifier .value) (accept_missed (by simp [kind]) rest),
    call, found_bind_of_missed (Rule.identifier .call) (accept_missed (by simp [kind]) rest),
    enclosed, found_bind_of_missed (Rule.mark .value '(') (accept_missed (by simp [isMark]) rest)]
  simp only [Rule.bind_pure_apply, integer_number kind, Option.map_map]
  simp [Rule.oneOf]
  rfl

end Grammar

/-! ## The text of an integer -/

theorem magnitude_toDigits (number : Nat) : Magnitude (Nat.toDigits 10 number) := by
  have numeric : ∀ digit ∈ Nat.toDigits 10 number, digit.isDigit = true :=
    fun _ => Json.isDigit_of_mem_toDigits
  have some : Nat.toDigits 10 number ≠ [] := Nat.toDigits_ne_nil
  obtain ⟨first, others, same⟩ := List.exists_cons_of_ne_nil some
  rw [same, List.forall_mem_cons] at numeric
  have whole := Magnitude.whole numeric.1 numeric.2 .absent
  rwa [List.append_nil, ← same] at whole

theorem positional_toDigits (number : Nat) : Text.positional (Nat.toDigits 10 number) = number := by
  rw [← Text.digitsValue_eq, Json.digitsValue_toDigits]

/-- The decimal text of an integer is a text of a number token, and it writes the integer. -/
theorem decimal_text (value : Int) :
    Lexeme .number (toString value).toList ∧ Text.WritesInteger (toString value).toList value := by
  have some : ∀ number, Nat.toDigits 10 number ≠ [] := fun _ => Nat.toDigits_ne_nil
  have numeric : ∀ number, ∀ digit ∈ Nat.toDigits 10 number, digit.isDigit = true :=
    fun _ _ => Json.isDigit_of_mem_toDigits
  cases value with
  | ofNat number =>
      have text : (toString (Int.ofNat number)).toList = Nat.toDigits 10 number := Nat.toList_repr
      have writes := Text.WritesInteger.unsigned (some number) (numeric number)
      have magnitude := magnitude_toDigits number
      rw [positional_toDigits] at writes
      rw [text]
      refine ⟨?_, writes⟩
      obtain ⟨first, others, same⟩ := List.exists_cons_of_ne_nil (some number)
      have leads := numeric number first (same ▸ List.mem_cons_self)
      rw [same] at magnitude ⊢
      exact .unsigned leads magnitude
  | negSucc number =>
      have text : (toString (Int.negSucc number)).toList = '-' :: Nat.toDigits 10 (number + 1) := by
        show ("-" ++ Nat.repr (number + 1)).toList = _
        rw [String.toList_append, Nat.toList_repr]
        rfl
      have writes := Text.WritesInteger.minus (some (number + 1)) (numeric (number + 1))
      rw [positional_toDigits] at writes
      rw [text]
      exact ⟨.signed (.inr rfl) (magnitude_toDigits _), writes⟩

/-- The text of a number token is a token by itself. -/
theorem tokenize_number {text : String} (lexeme : Lexeme .number text.toList) :
    tokenize text = .ok [⟨.number, text, Position.start⟩,
      Token.endAt (Position.start.after text.toList)] := by
  have apart : Text.Apart [] := nofun
  have found := lexeme.firstMatch apart
  rw [List.append_nil] at found
  have ended : Lexes [] (Position.start.after text.toList)
      (.ok [Token.endAt (Position.start.after text.toList)]) := .done
  have lexes := Lexes.token found ended
  rw [String.ofList_toList] at lexes
  exact tokenize_of_lexes lexes

/-- A number token is a value just when its text is an integer in 64 bits in decimal digits, with or
without a sign; the value is this integer, and otherwise there is no value.  The decimal text of
every integer in 64 bits is one number token, and its value is the integer. -/
theorem integer_literals :
    (∀ (expression : Rule Expression) (lexeme : String) (position : Position) (rest : List Token),
      let found := (Grammar.valueOf expression (⟨.number, lexeme, position⟩ :: rest)).found
      (∀ value taken, found = some (value, taken) ↔ ∃ number written,
        value = .number position number ∧ taken = 1 ∧ Text.WritesInteger lexeme.toList written ∧
          -2 ^ 63 ≤ written ∧ written ≤ 2 ^ 63 - 1 ∧ number.toInt = written) ∧
      (found = none ↔ ∀ written, Text.WritesInteger lexeme.toList written →
        ¬ (-2 ^ 63 ≤ written ∧ written ≤ 2 ^ 63 - 1))) ∧
    ∀ number : Int64,
      let text := toString number.toInt
      tokenize text = .ok [⟨.number, text, Position.start⟩,
        Token.endAt (Position.start.after text.toList)] ∧
      ∀ (expression : Rule Expression) (position : Position) (rest : List Token),
        (Grammar.valueOf expression (⟨.number, text, position⟩ :: rest)).found =
          some (.number position number, 1) := by
  refine ⟨fun expression lexeme position rest => ⟨fun value taken => ?_, ?_⟩, fun number =>
    ⟨tokenize_number (decimal_text number.toInt).1, fun expression position rest => ?_⟩⟩
  · rw [Grammar.valueOf_number expression rfl, Option.map_eq_some_iff]
    constructor
    · rintro ⟨number, read, ⟨⟩⟩
      obtain ⟨written, writes, lower, upper, same⟩ := Text.integer64?_eq_some_iff.mp read
      exact ⟨number, written, rfl, rfl, writes, lower, upper, same⟩
    · rintro ⟨number, written, rfl, rfl, writes, lower, upper, same⟩
      exact ⟨number, Text.integer64?_eq_some_iff.mpr ⟨written, writes, lower, upper, same⟩, rfl⟩
  · rw [Grammar.valueOf_number expression rfl, Option.map_eq_none_iff,
      Option.eq_none_iff_forall_ne_some]
    constructor
    · rintro none written writes ⟨lower, upper⟩
      have fits := Int64.toInt_ofInt_of_le lower (Int.lt_of_le_sub_one upper)
      exact none _ (Text.integer64?_eq_some_iff.mpr ⟨written, writes, lower, upper, fits⟩)
    · intro none number read
      obtain ⟨written, writes, lower, upper, _⟩ := Text.integer64?_eq_some_iff.mp read
      exact none written writes ⟨lower, upper⟩
  · have read : Text.integer64? (toString number.toInt).toList = some number :=
      Text.integer64?_eq_some_iff.mpr ⟨_, (decimal_text number.toInt).2, number.le_toInt,
        Int.le_sub_one_of_lt number.toInt_lt, rfl⟩
    rw [Grammar.valueOf_number expression rfl, read]
    rfl

end CollectionSchema
