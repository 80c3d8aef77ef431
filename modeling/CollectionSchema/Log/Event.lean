import CollectionSchema.SchemaError

/-!
# Log events

While schemas are loaded, the program notes what it does.  An event has a level,
belongs to one part of the program, and is written on one line with its level in
front and its details behind.
-/

set_option autoImplicit false

namespace CollectionSchema

/-- How important an event is. -/
inductive LogLevel where
  | error
  | warn
  | info
  | debug
  | trace
  deriving DecidableEq, Repr

namespace LogLevel

/-- How a line names a level. -/
def text : LogLevel → String
  | .error => "ERROR"
  | .warn => "WARN"
  | .info => "INFO"
  | .debug => "DEBUG"
  | .trace => "TRACE"

/-- How much a level lets through: the more, the higher. -/
def verbosity : LogLevel → Nat
  | .error => 1
  | .warn => 2
  | .info => 3
  | .debug => 4
  | .trace => 5

end LogLevel

/-- What the program notes. -/
inductive LogEvent where
  /-- A text was cut into tokens. -/
  | tokenized (count : Nat)
  /-- Tokens were parsed. -/
  | parsed (nodes tokens : Nat)
  | parsedFile (path : String) (nodes : Nat)
  | parsedDirectory (path : String) (files nodes : Nat)
  | skippedDirectory (path : String)
  | skippedFile (path : String)
  /-- A file failed, and with it its directory. -/
  | stopped (path : String) (error : SchemaError)
  /-- The program gives up. -/
  | failed (error : SchemaError)

namespace LogEvent

/-- The level of an event. -/
def level : LogEvent → LogLevel
  | .tokenized _ => .trace
  | .parsed _ _ => .trace
  | .parsedFile _ _ => .debug
  | .parsedDirectory _ _ _ => .info
  | .skippedDirectory _ => .debug
  | .skippedFile _ => .debug
  | .stopped _ _ => .warn
  | .failed _ => .error

/-- The part of the program that an event belongs to, as filters name it. -/
def target : LogEvent → String
  | .tokenized _ => "polylang::lexer::lexer"
  | .parsed _ _ => "polylang::parser::parser"
  | .parsedFile _ _ => "polylang::source"
  | .parsedDirectory _ _ _ => "polylang::source"
  | .skippedDirectory _ => "polylang::source"
  | .skippedFile _ => "polylang::source"
  | .stopped _ _ => "polylang::source"
  | .failed _ => "polylang"

/-- What an event says. -/
def message : LogEvent → String
  | .tokenized _ => "tokenized buffer"
  | .parsed _ _ => "parsed buffer"
  | .parsedFile _ _ => "parsed file"
  | .parsedDirectory _ _ _ => "parsed directory"
  | .skippedDirectory _ => "skipping subdirectory"
  | .skippedFile _ => "skipping non-source file"
  | .stopped _ _ => "directory parse stopped"
  | .failed error => error.display

/-- The details of an event by their names. -/
def details : LogEvent → List (String × String)
  | .tokenized count => [("count", toString count)]
  | .parsed nodes tokens => [("nodes", toString nodes), ("tokens", toString tokens)]
  | .parsedFile path nodes => [("path", path), ("nodes", toString nodes)]
  | .parsedDirectory path files nodes =>
    [("dir", path), ("files", toString files), ("nodes", toString nodes)]
  | .skippedDirectory path => [("path", path)]
  | .skippedFile path => [("path", path)]
  | .stopped path error => [("path", path), ("error", error.display)]
  | .failed _ => []

/-- The names of everything that an event holds. -/
def fieldNames (event : LogEvent) : List String := "message" :: event.details.map Prod.fst

/-- An event on a line.  Controls are written by their codes in what it says, but not in its
details. -/
def line (event : LogEvent) : String :=
  event.level.text ++ " " ++ Text.withoutControls event.message ++
    String.join (event.details.map fun detail => " " ++ detail.1 ++ "=" ++ detail.2) ++ "\n"

end LogEvent

end CollectionSchema
