import CollectionSchema.Json.Failure
import CollectionSchema.Text.Decimal

/-!
# Numbers in JSON

A number is written with an optional sign, digits without superfluous leading
zeros, and then possibly a fraction and an exponent.  Without the latter two, and
within 64 bits, it is an integer.  Any other number is approximated by a binary
floating-point number with 53 bits, and one that is too large for that is refused.

A number that breaks off at the end of the text is a special case.  Whoever wants
its value is told that the text ended too early, while whoever only passes over it
is told that the number is wrong.
-/

set_option autoImplicit false

namespace CollectionSchema.Json

/-- Why a number is refused: for one who wants its value, and for one who passes over it. -/
structure NumeralFault where
  decoding : Failure
  skipping : Failure
  deriving DecidableEq, Repr

/-- A number as it is written. -/
structure Numeral where
  negative : Bool
  whole : List Char
  /-- The digits behind the dot, when there is one. -/
  fraction : Option (List Char)
  /-- Whether the exponent is negative, and its digits, when there is one. -/
  exponent : Option (Bool × List Char)
  deriving DecidableEq, Repr

namespace Numeral

/-! ## Reading a number -/

/-- A fault at a place where a digit is missing. -/
def faultAt : List Char → NumeralFault
  | [] => ⟨.ended, .malformed⟩
  | _ :: _ => ⟨.malformed, .malformed⟩

/-- At least one digit, and what follows the digits. -/
def digits (text : List Char) : Except NumeralFault (List Char × List Char) :=
  match text.takeWhile Char.isDigit with
  | [] => .error (faultAt text)
  | first :: others => .ok (first :: others, text.dropWhile Char.isDigit)

/-- The digits before the dot; a zero stands alone. -/
def wholePart (text : List Char) : Except NumeralFault (List Char × List Char) :=
  match text with
  | '0' :: rest =>
    if (rest.head?.map Char.isDigit).getD false then .error ⟨.malformed, .malformed⟩
    else .ok (['0'], rest)
  | _ => digits text

/-- A dot and digits, or nothing. -/
def fractionPart : List Char → Except NumeralFault (Option (List Char) × List Char)
  | '.' :: rest => (digits rest).map fun found => (some found.1, found.2)
  | text => .ok (none, text)

/-- The sign and the digits of an exponent. -/
def signedDigits : List Char → Except NumeralFault (Option (Bool × List Char) × List Char)
  | '+' :: rest => (digits rest).map fun found => (some (false, found.1), found.2)
  | '-' :: rest => (digits rest).map fun found => (some (true, found.1), found.2)
  | text => (digits text).map fun found => (some (false, found.1), found.2)

/-- An exponent, or nothing. -/
def exponentPart : List Char → Except NumeralFault (Option (Bool × List Char) × List Char)
  | 'e' :: rest => signedDigits rest
  | 'E' :: rest => signedDigits rest
  | text => .ok (none, text)

/-- The sign of a number, and what follows it. -/
def signPart : List Char → Bool × List Char
  | '-' :: rest => (true, rest)
  | text => (false, text)

/-- The number at the front of a text, and what follows it. -/
def read (text : List Char) : Except NumeralFault (Numeral × List Char) := do
  let (negative, text) := signPart text
  let (whole, text) ← wholePart text
  let (fraction, text) ← fractionPart text
  let (exponent, text) ← exponentPart text
  return (⟨negative, whole, fraction, exponent⟩, text)

/-! ## The value of a number -/

/-- The integer that a number is, when it is one and lies in range: a negative one in 64 bits with a
sign, any other in 64 bits without.  The negative zero is none. -/
def integer? (numeral : Numeral) : Option Int :=
  if numeral.fraction.isSome || numeral.exponent.isSome then none
  else
    let value := Text.digitsValue numeral.whole
    if numeral.negative then
      if value = 0 || 1 <<< 63 < value then none else some (-(value : Int))
    else if value < 1 <<< 64 then some value
    else none

/-- Appends digits to a number as long as it fits into 64 bits, and gives the digits that are
left. -/
def accumulate (value : Nat) : List Char → Nat × List Char
  | [] => (value, [])
  | digit :: rest =>
    let longer := 10 * value + Text.digitValue digit
    if longer < 1 <<< 64 then accumulate longer rest else (value, digit :: rest)

/-- The leading digits of a number and the power of ten that belongs to them.  Digits before the dot
that no longer fit raise the power; digits behind it that no longer fit are dropped. -/
def scaled (numeral : Numeral) : Nat × Int :=
  let (whole, left) := accumulate 0 numeral.whole
  let fraction := numeral.fraction.getD []
  let (value, dropped) := accumulate whole fraction
  let stated : Int := match numeral.exponent with
    | none => 0
    | some (true, digits) => -(Text.digitsValue digits : Int)
    | some (false, digits) => (Text.digitsValue digits : Int)
  (value, (left.length : Int) - ((fraction.length : Int) - dropped.length) + stated)

/-- The nearest number with 53 significant bits; of two equally near ones the even one. -/
def roundTo53 (value : Nat) : Nat :=
  if value < 1 <<< 53 then value
  else
    let unit := 1 <<< (value.log2 - 52)
    let lower := value / unit
    let rest := value % unit
    if unit < 2 * rest || (unit = 2 * rest && lower % 2 = 1) then (lower + 1) * unit
    else lower * unit

/-- Whether a number is too large for floating point: the product of its leading digits and its
power of ten, each rounded to 53 bits, lies half a unit or more above the largest finite number. -/
def overflows (numeral : Numeral) : Bool :=
  let (value, power) := numeral.scaled
  value != 0 && 0 ≤ power &&
    (308 < power ||
      (1 <<< 1024) - (1 <<< 970) ≤ roundTo53 value * roundTo53 (Nat.pow 10 power.toNat))

end Numeral

end CollectionSchema.Json
