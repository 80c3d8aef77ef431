/-!
# Hexadecimal numbers

Numbers are written with lower-case digits and read with digits in either case.
-/

set_option autoImplicit false

namespace CollectionSchema.Text

/-- A number in lower-case hexadecimal. -/
def hexadecimal (number : Nat) : String := String.ofList (Nat.toDigits 16 number)

/-- The value of a hexadecimal digit in either case. -/
def hexDigit? (character : Char) : Option Nat :=
  if character.isDigit then some (character.toNat - '0'.toNat)
  else if 'a' ≤ character && character ≤ 'f' then some (character.toNat - 'a'.toNat + 10)
  else if 'A' ≤ character && character ≤ 'F' then some (character.toNat - 'A'.toNat + 10)
  else none

end CollectionSchema.Text
