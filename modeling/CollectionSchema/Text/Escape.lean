import CollectionSchema.Text.Hexadecimal
import CollectionSchema.Text.Unprintable

/-!
# Showing characters in messages, literals and the log

Three notations show text that may hold unprintable characters.  A message names
one character: printable ASCII stands for itself, and everything else is written
by its code point.  A literal is a whole text between double quotes, in which
everything printable stands for itself.  The log leaves alone everything but the
controls that could take hold of a terminal.
-/

set_option autoImplicit false

namespace CollectionSchema.Text

/-- A character written by its code point, in braces. -/
def codePointEscape (character : Char) : String :=
  "\\u\x7b" ++ hexadecimal character.toNat ++ "\x7d"

/-! ## Messages -/

/-- How a message shows one character. -/
def shownInMessage (character : Char) : String :=
  if character = '\t' then "\\t"
  else if character = '\r' then "\\r"
  else if character = '\n' then "\\n"
  else if character = '\'' then "\\'"
  else if character = '"' then "\\\""
  else if character = '\\' then "\\\\"
  else if 0x20 ≤ character.toNat && character.toNat ≤ 0x7E then String.singleton character
  else codePointEscape character

/-! ## Literals -/

/-- How a literal shows one character. -/
def shownInLiteral (character : Char) : String :=
  if character = '"' then "\\\""
  else if character = '\\' then "\\\\"
  else if character = '\n' then "\\n"
  else if character = '\r' then "\\r"
  else if character = '\t' then "\\t"
  else if character = '\x00' then "\\0"
  else if isPrintable character then String.singleton character
  else codePointEscape character

/-- A text between double quotes. -/
def literal (text : String) : String :=
  "\"" ++ String.join (text.toList.map shownInLiteral) ++ "\""

/-! ## The log -/

/-- How the log shows one character of what an event says. -/
def shownInLog (character : Char) : String :=
  if character = '\x07' then "\\x07"
  else if character = '\x08' then "\\x08"
  else if character = '\x0c' then "\\x0c"
  else if character = '\x1b' then "\\x1b"
  else if character = '\x7f' then "\\x7f"
  else if 0x80 ≤ character.toNat && character.toNat ≤ 0x9F then codePointEscape character
  else String.singleton character

/-- A text in which controls that could take hold of a terminal are written by their codes. -/
def withoutControls (text : String) : String := String.join (text.toList.map shownInLog)

end CollectionSchema.Text
