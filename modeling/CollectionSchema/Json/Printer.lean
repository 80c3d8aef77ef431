import CollectionSchema.Json.Value

/-!
# Writing JSON

A document is written either on one line without any blanks, or over several
lines with two blanks of indentation for each level.  Strings escape the quote,
the backslash and the control characters, and nothing else.
-/

set_option autoImplicit false

namespace CollectionSchema.Json

/-! ## Strings -/

/-- A control character by its code, with four hexadecimal digits. -/
def controlEscape (character : Char) : List Char :=
  ['\\', 'u', '0', '0', Nat.digitChar (character.toNat / 16), Nat.digitChar (character.toNat % 16)]

/-- How a string writes one character. -/
def escape (character : Char) : List Char :=
  if character = '"' then ['\\', '"']
  else if character = '\\' then ['\\', '\\']
  else if character = '\n' then ['\\', 'n']
  else if character = '\r' then ['\\', 'r']
  else if character = '\t' then ['\\', 't']
  else if character = '\x08' then ['\\', 'b']
  else if character = '\x0c' then ['\\', 'f']
  else if character.toNat < 0x20 then controlEscape character
  else [character]

/-- A text between quotes. -/
def quote (text : String) : List Char := '"' :: text.toList.flatMap escape ++ ['"']

/-- A document without parts, as it is written in both forms. -/
def leaf : Json → List Char
  | .null => ['n', 'u', 'l', 'l']
  | .bool true => ['t', 'r', 'u', 'e']
  | .bool false => ['f', 'a', 'l', 's', 'e']
  | .integer value => (toString value).toList
  | .decimal written => written
  | .string text => quote text
  | .array _ | .object _ => []

/-! ## One line -/

mutual

/-- The characters of a document on one line. -/
def compactChars : Json → List Char
  | .array items => '[' :: compactItems items ++ [']']
  | .object members => '\x7b' :: compactMembers members ++ ['\x7d']
  | value => leaf value

/-- The items of an array with commas between them. -/
def compactItems : List Json → List Char
  | [] => []
  | [item] => compactChars item
  | item :: rest => compactChars item ++ ',' :: compactItems rest

/-- The members of an object with commas between them. -/
def compactMembers : List (String × Json) → List Char
  | [] => []
  | [(key, value)] => quote key ++ ':' :: compactChars value
  | (key, value) :: rest => quote key ++ ':' :: compactChars value ++ ',' :: compactMembers rest

end

/-- A document on one line. -/
def compact (value : Json) : String := String.ofList (compactChars value)

/-! ## Several lines -/

/-- The start of a line at a level. -/
def newLine (level : Nat) : List Char := '\n' :: List.replicate (2 * level) ' '

mutual

/-- The characters of a document over several lines, at a level of indentation. -/
def prettyChars (level : Nat) : Json → List Char
  | .array [] => ['[', ']']
  | .array items => '[' :: prettyItems (level + 1) items ++ newLine level ++ [']']
  | .object [] => ['\x7b', '\x7d']
  | .object members =>
    '\x7b' :: prettyMembers (level + 1) members ++ newLine level ++ ['\x7d']
  | value => leaf value

/-- The items of an array, each on lines of its own. -/
def prettyItems (level : Nat) : List Json → List Char
  | [] => []
  | [item] => newLine level ++ prettyChars level item
  | item :: rest => newLine level ++ prettyChars level item ++ ',' :: prettyItems level rest

/-- The members of an object, each on lines of its own. -/
def prettyMembers (level : Nat) : List (String × Json) → List Char
  | [] => []
  | [(key, value)] => newLine level ++ quote key ++ [':', ' '] ++ prettyChars level value
  | (key, value) :: rest =>
    newLine level ++ quote key ++ [':', ' '] ++ prettyChars level value ++
      ',' :: prettyMembers level rest

end

/-- A document over several lines. -/
def pretty (value : Json) : String := String.ofList (prettyChars 0 value)

end CollectionSchema.Json
