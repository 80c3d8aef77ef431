import CollectionSchema.Text.Blank
import CollectionSchema.Token.Basic

/-!
# Token patterns

Six patterns describe everything that a schema text may hold: comments, white
space, identifiers, quoted strings, numbers and punctuation marks.  A pattern
looks at the front of a text and either takes a piece of it or declines.  At any
place the first pattern of the table that takes something decides what stands
there, so a dot starts an identifier even before a digit, and a sign belongs to
the number that follows it.

A cut never loses a character, and it never takes nothing.
-/

set_option autoImplicit false

namespace CollectionSchema

/-- A text in two parts: what a pattern takes from its front, and what it leaves. -/
structure Cut where
  taken : List Char
  left : List Char
  deriving DecidableEq, Repr

namespace Cut

/-- Puts characters in front of what was taken. -/
def prepend (front : List Char) (cut : Cut) : Cut := ⟨front ++ cut.taken, cut.left⟩

/-- Takes the longest run of characters that pass a test; it may be empty. -/
def run (test : Char → Bool) (text : List Char) : Cut := ⟨text.takeWhile test, text.dropWhile test⟩

end Cut

/-- Takes a piece from the front of a text, or declines. -/
abbrev Pattern := List Char → Option Cut

namespace Pattern

/-! ## Comments and white space -/

/-- Takes everything up to and including the first end of a block comment. -/
def blockEnd : Pattern
  | [] => none
  | '*' :: '/' :: left => some ⟨['*', '/'], left⟩
  | character :: rest => (blockEnd rest).map (Cut.prepend [character])

/-- A comment: from two slashes to the end of the line, or from a slash and a star to the nearest
star and slash.  A block that never ends is no comment. -/
def comment : Pattern
  | '/' :: '/' :: rest => some ((Cut.run (· ≠ '\n') rest).prepend ['/', '/'])
  | '/' :: '*' :: rest => (blockEnd rest).map (Cut.prepend ['/', '*'])
  | _ => none

/-- A run of white space. -/
def blanks : Pattern
  | [] => none
  | character :: rest =>
    if Text.isBlank character then some ((Cut.run Text.isBlank rest).prepend [character]) else none

/-! ## Identifiers, strings and marks -/

/-- Whether a character is a letter of the Latin alphabet, an underscore or a dot. -/
def startsIdentifier (character : Char) : Bool :=
  character.isAlpha || character == '_' || character == '.'

/-- Whether a character may stand inside an identifier. -/
def continuesIdentifier (character : Char) : Bool :=
  startsIdentifier character || character.isDigit

/-- An identifier; its dots are part of it, so a path is a single name. -/
def identifier : Pattern
  | [] => none
  | character :: rest =>
    if startsIdentifier character then
      some ((Cut.run continuesIdentifier rest).prepend [character])
    else none

/-- The rest of a string after its first quote: up to the next quote of the same kind. -/
def quoted (quote : Char) (text : List Char) : Option Cut :=
  match text.dropWhile (· ≠ quote) with
  | [] => none
  | closing :: left => some ⟨quote :: text.takeWhile (· ≠ quote) ++ [closing], left⟩

/-- A string in double or single quotes.  It has no escapes and may run over several lines. -/
def string : Pattern
  | '"' :: rest => quoted '"' rest
  | '\'' :: rest => quoted '\'' rest
  | _ => none

/-- The punctuation marks. -/
def marks : List Char :=
  ['[', ']', '?', ':', ';', '@', '(', ')', ',', '\x7b', '\x7d', '!', '~', '*', '/', '%', '+', '-',
    '<', '>', '&', '=', '^', '|']

/-- A single punctuation mark. -/
def mark : Pattern
  | [] => none
  | character :: rest => if marks.contains character then some ⟨[character], rest⟩ else none

/-! ## Numbers -/

/-- At least one digit, and all that follow it. -/
def digits : Pattern
  | [] => none
  | character :: rest =>
    if character.isDigit then some ((Cut.run Char.isDigit rest).prepend [character]) else none

/-- A dot after the digits of a number, with the digits after the dot; nothing when no dot is
there. -/
def fraction : List Char → Cut
  | '.' :: rest => (Cut.run Char.isDigit rest).prepend ['.']
  | text => ⟨[], text⟩

/-- A number without a sign: digits with or without a fraction, or a dot and digits. -/
def magnitude : Pattern
  | '.' :: rest => (digits rest).map (Cut.prepend ['.'])
  | text => (digits text).map fun whole => (fraction whole.left).prepend whole.taken

/-- A number, with a sign or without. -/
def number : Pattern
  | '+' :: rest => (magnitude rest).map (Cut.prepend ['+'])
  | '-' :: rest => (magnitude rest).map (Cut.prepend ['-'])
  | text => magnitude text

/-! ## The table -/

/-- The patterns in the order in which they are tried, with the kind of token that each makes;
comments and white space make none. -/
def table : List (Option TokenKind × Pattern) :=
  [(none, comment), (none, blanks), (some .identifier, identifier), (some .string, string),
    (some .number, number), (some .symbol, mark)]

/-- What stands at the front of a text: the piece that the first matching pattern takes. -/
def firstMatch (text : List Char) : Option (Option TokenKind × Cut) :=
  table.findSome? fun entry => (entry.2 text).map fun cut => (entry.1, cut)

end Pattern

end CollectionSchema
