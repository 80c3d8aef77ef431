import CollectionSchema.Json.Numeral
import CollectionSchema.Json.Reading
import CollectionSchema.Text.Hexadecimal

/-!
# Reading JSON

The reader goes over a text once and gives the reading of the value at its front,
together with the rest of the text.  There is no rest behind a fault that cannot
be passed over.
-/

set_option autoImplicit false

namespace CollectionSchema.Json

/-- Whether a character may stand between the parts of a document. -/
def isBlank (character : Char) : Bool :=
  character == ' ' || character == '\t' || character == '\n' || character == '\r'

/-- A text without the blanks at its front. -/
def skipBlanks (text : List Char) : List Char := text.dropWhile isBlank

/-! ## Strings -/

/-- How many bytes a text takes in UTF-8. -/
def byteLength (text : List Char) : Nat :=
  text.foldl (fun length character => length + character.utf8Size) 0

/-- The value of four hexadecimal digits.  A text with fewer than four bytes has ended too early. -/
def hexQuad (text : List Char) : Except Failure (Nat × List Char) :=
  match text with
  | first :: second :: third :: fourth :: rest =>
    match Text.hexDigit? first, Text.hexDigit? second, Text.hexDigit? third,
        Text.hexDigit? fourth with
    | some a, some b, some c, some d => .ok (((a * 16 + b) * 16 + c) * 16 + d, rest)
    | _, _, _, _ => .error .malformed
  | _ => if byteLength text < 4 then .error .ended else .error .malformed

/-- Whether a code is the first half of a surrogate pair. -/
def isHighSurrogate (code : Nat) : Bool := 0xD800 ≤ code && code ≤ 0xDBFF

/-- Whether a code is the second half of a surrogate pair. -/
def isLowSurrogate (code : Nat) : Bool := 0xDC00 ≤ code && code ≤ 0xDFFF

/-- The second half of a surrogate pair, which must follow the first half as an escape. -/
def lowSurrogate : List Char → Except Failure (Nat × List Char)
  | [] => .error .ended
  | ['\\'] => .error .ended
  | '\\' :: 'u' :: rest => do
    let (code, rest) ← hexQuad rest
    if isLowSurrogate code then return (code, rest) else throw .malformed
  | _ => .error .malformed

/-- The character that an escape by code writes. -/
def codeEscape (text : List Char) : Except Failure (Char × List Char) := do
  let (code, rest) ← hexQuad text
  if isLowSurrogate code then throw .malformed
  else if isHighSurrogate code then
    let (low, rest) ← lowSurrogate rest
    return (Char.ofNat (0x10000 + (code - 0xD800) * 0x400 + (low - 0xDC00)), rest)
  else return (Char.ofNat code, rest)

/-- The character that a short escape writes, by the letter behind the backslash. -/
def shortEscape? (letter : Char) : Option Char :=
  if letter = '"' then some '"'
  else if letter = '\\' then some '\\'
  else if letter = '/' then some '/'
  else if letter = 'b' then some '\x08'
  else if letter = 'f' then some '\x0c'
  else if letter = 'n' then some '\n'
  else if letter = 'r' then some '\r'
  else if letter = 't' then some '\t'
  else none

/-- The character that an escape writes, behind its backslash. -/
def escaped : List Char → Except Failure (Char × List Char)
  | [] => .error .ended
  | letter :: rest =>
    if letter = 'u' then codeEscape rest
    else match shortEscape? letter with
      | some character => .ok (character, rest)
      | none => .error .malformed

/-- The content of a string behind its first quote, and the text behind its last; the first argument
bounds the length of the content. -/
def stringContent : Nat → List Char → Except Failure (List Char × List Char)
  | 0, _ => .error .ended
  | _ + 1, [] => .error .ended
  | bound + 1, character :: rest =>
    if character = '"' then .ok ([], rest)
    else if character = '\\' then do
      let (first, rest) ← escaped rest
      let (others, rest) ← stringContent bound rest
      return (first :: others, rest)
    else if character.toNat < 0x20 then .error .malformed
    else do
      let (others, rest) ← stringContent bound rest
      return (character :: others, rest)

/-- Passes over an escape behind its backslash; surrogates need not be paired. -/
def passEscape : List Char → Except Failure (List Char)
  | [] => .error .ended
  | letter :: rest =>
    if letter = 'u' then (hexQuad rest).map Prod.snd
    else if (shortEscape? letter).isSome then .ok rest
    else .error .malformed

/-- Passes over a string behind its first quote. -/
def passString : Nat → List Char → Except Failure (List Char)
  | 0, _ => .error .ended
  | _ + 1, [] => .error .ended
  | bound + 1, character :: rest =>
    if character = '"' then .ok rest
    else if character = '\\' then do
      let rest ← passEscape rest
      passString bound rest
    else if character.toNat < 0x20 then .error .malformed
    else passString bound rest

/-! ## Values without parts -/

/-- The reading of a value and the text behind it. -/
abbrev Step := Reading × Option (List Char)

/-- A fault that cannot be passed over. -/
def stop (head : Option Char) (failure : Failure) : Step :=
  (.fault head failure (some failure), none)

/-- The string behind a quote. -/
def readString (text : List Char) : Step :=
  match stringContent (text.length + 1) text with
  | .ok (content, rest) => (.string (String.ofList content), some rest)
  | .error decoding =>
    match passString (text.length + 1) text with
    | .ok rest => (.fault (some '"') decoding none, some rest)
    | .error skipping => (.fault (some '"') decoding (some skipping), none)

/-- The number at the front of a text. -/
def readNumber (text : List Char) : Step :=
  match Numeral.read text with
  | .error fault => (.fault text.head? fault.decoding (some fault.skipping), none)
  | .ok (numeral, rest) =>
    match numeral.integer? with
    | some value => (.integer value, some rest)
    | none =>
      if numeral.overflows then (.fault text.head? .malformed none, some rest)
      else (.decimal (text.take (text.length - rest.length)), some rest)

/-- What follows a word that the text must go on with. -/
def afterWord : List Char → List Char → Except Failure (List Char)
  | [], text => .ok text
  | _ :: _, [] => .error .ended
  | wanted :: word, character :: rest =>
    if wanted = character then afterWord word rest else .error .malformed

/-- A word that stands for a value. -/
def readWord (head : Char) (word : List Char) (value : Reading) (text : List Char) : Step :=
  match afterWord word text with
  | .ok rest => (value, some rest)
  | .error failure => stop (some head) failure

/-! ## Arrays and objects -/

/-- What follows an item or a member. -/
inductive Continuation where
  /-- A comma, and the text behind it. -/
  | more (text : List Char)
  /-- The closing bracket, and the text behind it. -/
  | done (text : List Char)
  /-- Neither of them. -/
  | broken (failure : Failure)

/-- What follows an item or a member, up to a closing bracket. -/
def continuation (bracket : Char) (text : List Char) : Continuation :=
  match skipBlanks text with
  | [] => .broken .ended
  | character :: rest =>
    if character = ',' then .more rest
    else if character = bracket then .done rest
    else .broken .malformed

/-- What is read of the parts of an array or an object: the parts, its end, and the text behind
it. -/
abbrev Parts (α : Type) := List α × Closing × Option (List Char)

/-- The parts behind a first one, read as far as the text goes on. -/
def joinParts {α : Type} (bracket : Char) (first : α) (rest : Option (List Char))
    (others : List Char → Parts α) : Parts α :=
  match rest with
  | none => ([first], .broken .ended, none)
  | some text =>
    match continuation bracket text with
    | .more text =>
      let (parts, closing, rest) := others text
      (first :: parts, closing, rest)
    | .done text => ([first], .closed, some text)
    | .broken failure => ([first], .broken failure, none)

/-- The parts of an array or an object behind its first bracket; there may be none. -/
def readParts {α : Type} (bracket : Char) (text : List Char) (parts : List Char → Parts α) :
    Parts α :=
  match skipBlanks text with
  | [] => ([], .broken .ended, none)
  | character :: rest =>
    if character = bracket then ([], .closed, some rest) else parts (character :: rest)

/-- Whether a reading can be the key of a member that is read or passed over. -/
def isKey : Reading → Bool
  | .string _ => true
  | .fault (some '"') _ _ => true
  | _ => false

/-- The value of a member whose key was read. -/
def readMember (value : List Char → Step) : Step → (Reading × Reading) × Option (List Char)
  | (key, none) => ((key, .fault none .ended (some .ended)), none)
  | (key, some text) =>
    if isKey key then
      match skipBlanks text with
      | [] => ((key, .fault none .ended (some .ended)), none)
      | character :: rest =>
        if character = ':' then
          let (found, rest) := value rest
          ((key, found), rest)
        else ((key, .fault none .malformed (some .malformed)), none)
    else ((key, .fault none .malformed (some .malformed)), none)

mutual

/-- The reading of the value at the front of a text; the first argument bounds the depth of the
recursion. -/
def readValue : Nat → List Char → Step
  | 0, _ => stop none .ended
  | bound + 1, text =>
    match skipBlanks text with
    | [] => stop none .ended
    | character :: rest =>
      if character = '"' then readString rest
      else if character = '-' || character.isDigit then readNumber (character :: rest)
      else if character = '[' then
        let (items, closing, rest) := readParts ']' rest (readItems bound)
        (.array items closing, rest)
      else if character = '\x7b' then
        let (members, closing, rest) := readParts '\x7d' rest (readMembers bound)
        (.object members closing, rest)
      else if character = 'n' then readWord 'n' ['u', 'l', 'l'] .null rest
      else if character = 't' then readWord 't' ['r', 'u', 'e'] (.bool true) rest
      else if character = 'f' then readWord 'f' ['a', 'l', 's', 'e'] (.bool false) rest
      else stop (some character) .malformed

/-- The items of an array from the first one on. -/
def readItems : Nat → List Char → Parts Reading
  | 0, _ => ([], .broken .ended, none)
  | bound + 1, text =>
    let (item, rest) := readValue bound text
    joinParts ']' item rest (readItems bound)

/-- The members of an object from the first one on. -/
def readMembers : Nat → List Char → Parts (Reading × Reading)
  | 0, _ => ([], .broken .ended, none)
  | bound + 1, text =>
    let (member, rest) := readMember (readValue bound) (readValue bound text)
    joinParts '\x7d' member rest (readMembers bound)

end

/-- The reading of the value at the front of a text. -/
def Reading.ofText (text : List Char) : Step := readValue (2 * text.length + 2) text

end CollectionSchema.Json
