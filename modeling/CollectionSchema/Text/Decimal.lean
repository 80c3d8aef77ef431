/-!
# Decimal integers

Reading an integer from its decimal digits.  Any number of leading zeros is
allowed, and a text is an integer in 64 bits exactly when it is an optional sign
and at least one digit, and the number that these write lies in the range of
such integers.
-/

set_option autoImplicit false

namespace CollectionSchema.Text

/-- The number that a digit stands for. -/
def digitValue (digit : Char) : Nat := digit.toNat - '0'.toNat

/-- The number that a row of digits writes. -/
def digitsValue (digits : List Char) : Nat :=
  digits.foldl (fun value digit => 10 * value + digitValue digit) 0

/-- The natural number that a text writes: at least one digit, and nothing else. -/
def natural? (text : List Char) : Option Nat :=
  if text ≠ [] ∧ text.all Char.isDigit = true then some (digitsValue text) else none

/-- The integer that a text writes: a natural number with a sign or without. -/
def integer? : List Char → Option Int
  | '+' :: rest => (natural? rest).map fun value => (value : Int)
  | '-' :: rest => (natural? rest).map fun value => -(value : Int)
  | text => (natural? text).map fun value => (value : Int)

/-- Whether an integer fits into 64 bits. -/
def fitsInteger64 (value : Int) : Bool :=
  -9223372036854775808 ≤ value && value ≤ 9223372036854775807

/-- The integer in 64 bits that a text writes. -/
def integer64? (text : List Char) : Option Int64 :=
  match integer? text with
  | some value => if fitsInteger64 value then some (Int64.ofInt value) else none
  | none => none

end CollectionSchema.Text
