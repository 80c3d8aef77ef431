import CollectionSchema.Text.Decimal
import CollectionSchema.Text.Hexadecimal
import CollectionSchema.Text.Letter

/-!
# Patterns for the values of fields

A log filter may ask for a field with a certain value, and the value is written as
a number or as a regular expression.  No event of this program is ever tested for a
value, so all that matters about such a text is whether it is one of the two.

Only texts without a comma and without a closing brace get here, since these end the
value.  So a brace that opens outside a class or an escape is never closed, and no
pattern holds one.  Patterns are used without looking around a place, so those that
ask for the end of a word in any script are refused as well.
-/

set_option autoImplicit false

namespace CollectionSchema.ValuePattern

/-! ## Modes -/

/-- What the flags of a pattern say about the text behind them. -/
structure Mode where
  /-- Whether characters are those of any script rather than bytes. -/
  unicode : Bool
  /-- Whether white space and comments between the parts of a pattern are passed over. -/
  spaced : Bool
  deriving DecidableEq, Repr

namespace Mode

/-- The mode in which every pattern starts. -/
def start : Mode := ⟨true, false⟩

/-- The mode after a flag was set or cleared; the other flags change nothing here. -/
def withFlag (mode : Mode) (flag : Char) (value : Bool) : Mode :=
  if flag = 'u' then { mode with unicode := value }
  else if flag = 'x' then { mode with spaced := value }
  else mode

/-- A text without the white space and the comments at its front; the first argument tells whether
the text starts within a comment. -/
def skipGap : Bool → List Char → List Char
  | _, [] => []
  | true, character :: rest => skipGap (character != '\n') rest
  | false, character :: rest =>
    if Text.isBlank character then skipGap false rest
    else if character = '#' then skipGap true rest
    else character :: rest

/-- A text without what is passed over at its front. -/
def skip (mode : Mode) (text : List Char) : List Char :=
  if mode.spaced then skipGap false text else text

end Mode

/-- The flags in front of a colon or a closing parenthesis, and the mode that they make.  No flag
stands there twice, and some flag follows a minus. -/
def readFlags (mode : Mode) (seen : List Char) : List Char → Option (Mode × List Char)
  | [] => none
  | character :: rest =>
    if character = ':' || character = ')' then
      if seen.head? = some '-' then none else some (mode, character :: rest)
    else if seen.contains character then none
    else if character = '-' then readFlags mode (character :: seen) rest
    else if ['i', 'm', 's', 'U', 'u', 'R', 'x'].contains character then
      readFlags (mode.withFlag character (!seen.contains '-')) (character :: seen) rest
    else none

/-! ## Escapes -/

/-- What an escape or a single character stands for. -/
inductive Atom where
  | character (value : Char)
  /-- Some set of characters. -/
  | set
  /-- A place between characters. -/
  | place
  deriving DecidableEq, Repr

/-- A number of hexadecimal digits, with their value put behind another one. -/
def hexDigits (mode : Mode) : Nat → Nat → List Char → Option (Nat × List Char)
  | 0, value, text => some (value, text)
  | count + 1, value, text =>
    match mode.skip text with
    | [] => none
    | digit :: rest => do
      let found ← Text.hexDigit? digit
      hexDigits mode count (16 * value + found) rest

/-- A character by its code, which has a fixed number of digits.  A code of two digits stands for a
byte where characters are bytes, and such a byte must be ASCII. -/
def codeEscape (mode : Mode) (digits : Nat) (text : List Char) : Option (Atom × List Char) := do
  let (code, rest) ← hexDigits mode digits 0 text
  if code.isValidChar && (mode.unicode || digits != 2 || code < 0x80) then
    return (.character (Char.ofNat code), rest)
  else none

/-- A category of characters by its letter. -/
def categoryEscape (mode : Mode) (text : List Char) : Option (Atom × List Char) :=
  match mode.skip text with
  | [] => none
  | letter :: rest =>
    if mode.unicode && ['l', 'm', 'n', 'p', 's', 'z', 'c'].contains letter.toLower then
      some (.set, rest)
    else none

/-- Whether a backslash may stand in front of a character without giving it a meaning. -/
def isPlain (character : Char) : Bool :=
  character.toNat < 0x80 && !character.isAlphanum && character != '<' && character != '>'

/-- What an escape stands for, behind its backslash. -/
def escaped (mode : Mode) : List Char → Option (Atom × List Char)
  | [] => none
  | character :: rest =>
    if character = 'x' then codeEscape mode 2 rest
    else if character = 'u' then codeEscape mode 4 rest
    else if character = 'U' then codeEscape mode 8 rest
    else if character = 'p' || character = 'P' then categoryEscape mode rest
    else if ['d', 's', 'w'].contains character then some (.set, rest)
    else if ['D', 'S', 'W'].contains character then
      if mode.unicode then some (.set, rest) else none
    else if isPlain character then some (.character character, rest)
    else if character = 'a' then some (.character '\x07', rest)
    else if character = 'f' then some (.character '\x0c', rest)
    else if character = 't' then some (.character '\t', rest)
    else if character = 'n' then some (.character '\n', rest)
    else if character = 'r' then some (.character '\r', rest)
    else if character = 'v' then some (.character '\x0b', rest)
    else if character = 'A' || character = 'z' then some (.place, rest)
    else if ['b', 'B', '<', '>'].contains character then
      if mode.unicode then none else some (.place, rest)
    else none

/-! ## Classes -/

/-- The names of the classes of ASCII characters. -/
def asciiClassNames : List String :=
  ["alnum", "alpha", "ascii", "blank", "cntrl", "digit", "graph", "lower", "print", "punct",
    "space", "upper", "word", "xdigit"]

/-- Whether a class of ASCII characters is negated, and what follows it, behind its first
bracket. -/
def asciiClass? : List Char → Option (Bool × List Char)
  | ':' :: rest =>
    let negated := rest.head? == some '^'
    let named := if negated then rest.drop 1 else rest
    let name := named.takeWhile (· ≠ ':')
    match named.drop name.length with
    | ':' :: ']' :: rest =>
      if asciiClassNames.contains (String.ofList name) then some (negated, rest) else none
    | _ => none
  | _ => none

/-- What follows the start of a class behind its bracket: a caret, and then any number of minuses or
a closing bracket that stand for themselves.  A class that is left out of bytes is refused. -/
def classStart (mode : Mode) (text : List Char) : Option (List Char) :=
  let text := mode.skip text
  let negated := text.head? == some '^'
  if negated && !mode.unicode then none
  else
    let text := if negated then mode.skip (text.drop 1) else text
    let rest := text.dropWhile fun character =>
      character == '-' || (mode.spaced && Text.isBlank character)
    match text, rest with
    | ']' :: behind, _ => some behind
    | _, _ => some rest

/-- One end of a range in a class, or a member of the class on its own. -/
def classItem (mode : Mode) : List Char → Option (Atom × List Char)
  | [] => none
  | '\\' :: rest => escaped mode rest
  | character :: rest =>
    if mode.unicode || character.toNat < 0x80 then some (.character character, rest) else none

/-- What follows a member of a class: a range, or something that stands there on its own. -/
def classMember (mode : Mode) (text : List Char) : Option (List Char) := do
  let (first, rest) ← classItem mode text
  let alone := if first = .place then none else some rest
  match mode.skip rest with
  | '-' :: behind =>
    match mode.skip behind with
    | [] => none
    | character :: others =>
      if character = ']' || character = '-' then alone
      else
        match first, ← classItem mode (character :: others) with
        | .character lower, (.character upper, rest) => if lower ≤ upper then some rest else none
        | _, _ => none
  | _ => alone

/-- What follows a class behind its start, with a number of brackets that are open; the first
argument bounds the number of steps. -/
def classRest (mode : Mode) : Nat → Nat → List Char → Option (List Char)
  | 0, _, _ => none
  | bound + 1, depth, text =>
    match mode.skip text with
    | [] => none
    | '[' :: rest =>
      match asciiClass? rest with
      | some (negated, rest) =>
        if negated && !mode.unicode then none else classRest mode bound depth rest
      | none => do classRest mode bound (depth + 1) (← classStart mode rest)
    | ']' :: rest => if depth ≤ 1 then some rest else classRest mode bound (depth - 1) rest
    | '&' :: '&' :: rest => classRest mode bound depth rest
    | '-' :: '-' :: rest => classRest mode bound depth rest
    | '~' :: '~' :: rest => classRest mode bound depth rest
    | other => do classRest mode bound depth (← classMember mode other)

/-- What follows a class behind its bracket. -/
def classBody (mode : Mode) (text : List Char) : Option (List Char) := do
  classRest mode (text.length + 1) 1 (← classStart mode text)

/-! ## Groups -/

/-- Whether a text can be the name of a group. -/
def isGroupName : List Char → Bool
  | [] => false
  | first :: rest =>
    (first == '_' || Text.isLetter first) &&
      rest.all fun character =>
        ['_', '.', '[', ']'].contains character || Text.isLetterOrDigit character

/-- How a group starts. -/
inductive Opening where
  /-- With flags for the rest of the group that is open already. -/
  | flags (mode : Mode)
  /-- With parts of its own, for which a mode holds, and perhaps with a name. -/
  | group (mode : Mode) (name : Option (List Char))

/-- A group with a name, behind the bracket in front of the name. -/
def namedGroup (mode : Mode) (text : List Char) : Option (Opening × List Char) :=
  let name := text.takeWhile (· ≠ '>')
  match text.drop name.length with
  | [] => none
  | _ :: rest => if isGroupName name then some (.group mode (some name), rest) else none

/-- How a group starts, behind its parenthesis.  A group never looks around the place where it
stands. -/
def groupOpening (mode : Mode) (text : List Char) : Option (Opening × List Char) :=
  match mode.skip text with
  | '?' :: '=' :: _ => none
  | '?' :: '!' :: _ => none
  | '?' :: '<' :: '=' :: _ => none
  | '?' :: '<' :: '!' :: _ => none
  | '?' :: 'P' :: '<' :: rest => namedGroup mode rest
  | '?' :: '<' :: rest => namedGroup mode rest
  | '?' :: ')' :: _ => none
  | '?' :: rest => do
    match ← readFlags mode [] rest with
    | (inner, ')' :: rest) => some (.flags inner, rest)
    | (inner, _ :: rest) => some (.group inner none, rest)
    | (_, []) => none
  | rest => some (.group mode none, rest)

/-! ## Patterns -/

/-- Where a reader of a pattern stands. -/
structure State where
  mode : Mode
  /-- The modes to go back to where the groups that are open end. -/
  outer : List Mode
  /-- The names that groups have. -/
  names : List (List Char)
  /-- Whether something stands in front that can be repeated. -/
  repeatable : Bool

/-- Whether a text is a pattern from some state on; the first argument bounds the number of
steps. -/
def isPatternFrom : Nat → State → List Char → Bool
  | 0, _, _ => false
  | bound + 1, state, text =>
    let after := { state with repeatable := true }
    match state.mode.skip text with
    | [] => state.outer.isEmpty
    | character :: rest =>
      if character = '(' then
        match groupOpening state.mode rest with
        | none => false
        | some (.flags mode, rest) =>
          isPatternFrom bound { state with mode, repeatable := false } rest
        | some (.group mode name, rest) =>
          !(name.any state.names.contains) &&
            isPatternFrom bound
              ⟨mode, state.mode :: state.outer, name.toList ++ state.names, false⟩ rest
      else if character = ')' then
        match state.outer with
        | [] => false
        | mode :: outer => isPatternFrom bound { after with mode, outer } rest
      else if character = '|' then isPatternFrom bound { state with repeatable := false } rest
      else if character = '[' then
        match classBody state.mode rest with
        | none => false
        | some rest => isPatternFrom bound after rest
      else if character = '?' || character = '*' || character = '+' then
        state.repeatable &&
          isPatternFrom bound state (if rest.head? = some '?' then rest.drop 1 else rest)
      else if character = '\x7b' then false
      else if character = '\\' then
        match escaped state.mode rest with
        | none => false
        | some (_, rest) => isPatternFrom bound after rest
      else if character = '.' && !state.mode.unicode then false
      else isPatternFrom bound after rest

/-- Whether a text is a pattern. -/
def isPattern (text : List Char) : Bool :=
  isPatternFrom (text.length + 1) ⟨Mode.start, [], [], false⟩ text

/-! ## Values -/

/-- Whether a text writes an exponent, or nothing at all. -/
def isExponent : List Char → Bool
  | [] => true
  | letter :: rest => (letter == 'e' || letter == 'E') && (Text.integer? rest).isSome

/-- Whether a text writes a number without a sign. -/
def isUnsignedNumber (text : List Char) : Bool :=
  if ["inf", "infinity", "nan"].contains (String.ofList text).toLower then true
  else
    let whole := text.takeWhile Char.isDigit
    match text.drop whole.length with
    | '.' :: rest =>
      let fraction := rest.takeWhile Char.isDigit
      (whole != [] || fraction != []) && isExponent (rest.drop fraction.length)
    | rest => whole != [] && isExponent rest

/-- Whether a text can be the value of a field: a number or a pattern.  Of the numbers only those
with a plus in front are no patterns. -/
def isValue : List Char → Bool
  | '+' :: rest => isUnsignedNumber rest
  | text => isPattern text

end CollectionSchema.ValuePattern
