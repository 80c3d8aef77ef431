/-!
# Blank characters

The characters that separate tokens are the ones Unicode calls white space.
The table below lists their code points as closed ranges.
-/

set_option autoImplicit false

namespace CollectionSchema.Text

/-- The code points with the Unicode property of white space, as closed ranges. -/
def blankRanges : List (Nat × Nat) :=
  [(0x09, 0x0D), (0x20, 0x20), (0x85, 0x85), (0xA0, 0xA0), (0x1680, 0x1680), (0x2000, 0x200A),
    (0x2028, 0x2029), (0x202F, 0x202F), (0x205F, 0x205F), (0x3000, 0x3000)]

/-- Whether a code point lies in one of the ranges. -/
def inRanges (ranges : List (Nat × Nat)) (code : Nat) : Bool :=
  ranges.any fun range => range.1 ≤ code && code ≤ range.2

/-- Whether a character is white space. -/
def isBlank (character : Char) : Bool := inRanges blankRanges character.toNat

end CollectionSchema.Text
