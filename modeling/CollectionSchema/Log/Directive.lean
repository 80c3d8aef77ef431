import CollectionSchema.Log.Event
import CollectionSchema.Log.ValuePattern

/-!
# Directives of a log filter

A directive sets a level for some events: for those of the parts of the program
whose names start with a text, for those that have a certain field, or for those
within a span.  It is written as the name of a part, a span with a field in
brackets, and a level behind an equals sign; each of the three may be left off, and
a level may stand alone.

Spans are stretches of work that a program marks as such, and a field with a certain
value is looked for in spans only.  This program marks none, so directives that ask
for a span or a value never apply.

The parts of a directive are counted out without the blanks around it, but they are
taken from the text as it stands.  With a blank in front none of them is what it
seems to be.
-/

set_option autoImplicit false

namespace CollectionSchema

/-- A field that a directive asks for. -/
structure FieldTest where
  name : String
  /-- Whether the directive asks for a certain value, too. -/
  testsValue : Bool
  deriving DecidableEq, Repr

/-- The field that a text asks for: a name, or a name and a value with an equals sign between
them. -/
def FieldTest.ofText? (text : List Char) : Option FieldTest :=
  let name := text.takeWhile (· ≠ '=')
  match text, text.drop name.length with
  | [], _ => none
  | _, [] => some ⟨String.ofList name, false⟩
  | _, _ :: rest =>
    if ValuePattern.isValue (rest.takeWhile (· ≠ '=')) then some ⟨String.ofList name, true⟩
    else none

/-- A level for some events; without a level they are silent. -/
structure LogDirective where
  /-- What the name of the part of the program starts with. -/
  target : String
  span : Option String
  field : Option FieldTest
  level : Option LogLevel
  deriving DecidableEq, Repr

namespace LogDirective

/-! ## Which events a directive is about -/

/-- Whether a directive asks for nothing but what an event can have. -/
def concernsEvents (directive : LogDirective) : Bool :=
  directive.span.isNone && !directive.field.any FieldTest.testsValue

/-- Whether a directive applies to an event. -/
def applies (directive : LogDirective) (event : LogEvent) : Bool :=
  directive.concernsEvents && directive.target.toList.isPrefixOf event.target.toList &&
    directive.field.all fun test => event.fieldNames.contains test.name

/-- Whether the second of two directives is at least as specific as the first: a longer text, then a
field, then the later name of a field. -/
def atMost (first second : LogDirective) : Bool :=
  if first.target.length ≠ second.target.length then
    first.target.length < second.target.length
  else
    match first.field, second.field with
    | none, _ => true
    | some _, none => false
    | some one, some other => one.name ≤ other.name

/-- The one of two directives that decides; of two equally specific ones the later. -/
def moreSpecific (first second : LogDirective) : LogDirective :=
  if first.atMost second then second else first

/-! ## How a directive is written -/

/-- The level with a number. -/
def levelNumbered? (number : Nat) : Option (Option LogLevel) :=
  [none, some .error, some .warn, some .info, some .debug, some .trace][number]?

/-- The level with a name. -/
def levelNamed? (name : String) : Option (Option LogLevel) :=
  if name = "off" then some none
  else if name = "error" then some (some .error)
  else if name = "warn" then some (some .warn)
  else if name = "info" then some (some .info)
  else if name = "debug" then some (some .debug)
  else if name = "trace" then some (some .trace)
  else none

/-- The level that a number or a name in either case stands for, with nothing inside for silence; a
number may have a plus in front. -/
def levelOf? (text : List Char) : Option (Option LogLevel) :=
  match Text.natural? (if text.head? = some '+' then text.drop 1 else text) with
  | some number => levelNumbered? number
  | none => levelNamed? (String.ofList text).toLower

/-- The level from a place in a text on; nothing stands for everything. -/
def levelFrom? (text : List Char) (place : Nat) : Option (Option LogLevel) :=
  match text.drop place with
  | [] => some (some .trace)
  | level => levelOf? level

/-- The part of a text between two places. -/
def part (text : List Char) (start stop : Nat) : List Char := (text.drop start).take (stop - start)

/-- A directive whose brackets end at a place, given what follows them. -/
def ending (text : List Char) (place : Nat) (directive : LogDirective) :
    List Char → Option LogDirective
  | [] => some directive
  | '=' :: _ => (levelFrom? text (place + 1)).map fun level => { directive with level }
  | _ => none

/-- A directive with brackets from a place on, given what follows the first of them. -/
def bracketed (text : List Char) (place : Nat) (target : String) (rest : List Char) :
    Option LogDirective :=
  let stop := place + (rest.takeWhile fun character => character ≠ ']' && character ≠ '\x7b').length
  let span := String.ofList (part text place stop)
  match rest.drop (stop - place) with
  | ']' :: rest => ending text (stop + 1) ⟨target, some span, none, some .trace⟩ rest
  | _ :: rest =>
    let last := stop + 1 + (rest.takeWhile (· ≠ '\x7d')).length
    match rest.drop (last - stop - 1) with
    | '\x7d' :: ']' :: rest => do
      let test ← FieldTest.ofText? (part text (stop + 1) last)
      let named := if span = "" then none else some span
      ending text (last + 2) ⟨target, named, some test, some .trace⟩ rest
    | _ => none
  | [] => none

/-- Whether the name of a part of the program may start with a character. -/
def startsName (character : Char) : Bool :=
  character == '-' || character == ':' || character == '_' || Text.isLetterOrDigit character

/-- A text without the blanks around it. -/
def trimmed (text : List Char) : List Char :=
  ((text.dropWhile Text.isBlank).reverse.dropWhile Text.isBlank).reverse

/-- The directive that a text writes. -/
def ofText? (text : List Char) : Option LogDirective :=
  match trimmed text with
  | [] => none
  | '[' :: rest => bracketed text 1 "" rest
  | first :: others =>
    let stop := ((first :: others).takeWhile fun character =>
      character ≠ '=' && character ≠ '[').length
    let target := String.ofList (part text 0 stop)
    if startsName first then
      match (first :: others).drop stop with
      | '=' :: _ => (levelFrom? text (stop + 1)).map fun level => ⟨target, none, none, level⟩
      | _ :: rest => bracketed text (stop + 1) target rest
      | [] =>
        match levelOf? text with
        | some level => some ⟨"", none, none, level⟩
        | none => some ⟨String.ofList text, none, none, some .trace⟩
    else none

end LogDirective

end CollectionSchema
