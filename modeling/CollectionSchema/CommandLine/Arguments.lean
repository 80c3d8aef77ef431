/-!
# Command-line arguments

The program takes one path, a format for its output, and a switch for JSON over
several lines.  Arguments are read from left to right, and the first one that does
not fit decides.  Behind two dashes every argument is a path.
-/

set_option autoImplicit false

namespace CollectionSchema.CommandLine

/-- How the program shows what it parsed. -/
inductive OutputFormat where
  | debug
  | json
  | summary
  deriving DecidableEq, Repr

/-- The format with a name. -/
def OutputFormat.ofName? (name : String) : Option OutputFormat :=
  if name = "debug" then some .debug
  else if name = "json" then some .json
  else if name = "summary" then some .summary
  else none

/-- What the program is asked to do. -/
structure Arguments where
  path : String
  format : OutputFormat
  pretty : Bool
  deriving DecidableEq, Repr

/-- Why the program does not start. -/
inductive Refusal where
  /-- Help is wanted. -/
  | help
  /-- The arguments do not fit. -/
  | misuse
  deriving DecidableEq, Repr

/-- The arguments that were read so far. -/
structure Progress where
  path : Option String
  format : Option OutputFormat
  pretty : Bool
  /-- Whether two dashes were read. -/
  pathsOnly : Bool
  deriving DecidableEq, Repr

namespace Progress

/-- Nothing was read. -/
def start : Progress := ⟨none, none, false, false⟩

/-- Reads a path; there is only one, and it is not empty. -/
def addPath (progress : Progress) (path : String) : Except Refusal Progress :=
  if path = "" || progress.path.isSome then .error .misuse
  else .ok { progress with path := some path }

/-- Reads the name of a format; there is only one. -/
def addFormat (progress : Progress) (name : String) : Except Refusal Progress :=
  match progress.format, OutputFormat.ofName? name with
  | none, some format => .ok { progress with format := some format }
  | _, _ => .error .misuse

/-- Reads the switch; it may stand there once. -/
def addPretty (progress : Progress) : Except Refusal Progress :=
  if progress.pretty then .error .misuse else .ok { progress with pretty := true }

/-- The arguments, when all of them are read. -/
def finish (progress : Progress) : Except Refusal Arguments :=
  match progress.path with
  | none => .error .misuse
  | some path => .ok ⟨path, progress.format.getD .summary, progress.pretty⟩

end Progress

/-- What follows the start of a text, when it starts so. -/
def after? (start text : String) : Option String :=
  if start.toList.isPrefixOf text.toList then
    some (String.ofList (text.toList.drop start.length))
  else none

/-- Whether an argument looks like an option; a single dash does not. -/
def looksLikeOption (argument : String) : Bool :=
  argument != "-" && argument.toList.head? == some '-'

/-- Reads an argument that takes no further one. -/
def readSingle (progress : Progress) (argument : String) : Except Refusal Progress :=
  if progress.pathsOnly then progress.addPath argument
  else if argument = "--" then .ok { progress with pathsOnly := true }
  else if argument = "--pretty" then progress.addPretty
  else if argument = "--help" || (after? "-h" argument).isSome then .error .help
  else match after? "--format=" argument with
    | some name => progress.addFormat name
    | none => if looksLikeOption argument then .error .misuse else progress.addPath argument

/-- Reads arguments one after the other. -/
def readArguments : Progress → List String → Except Refusal Arguments
  | progress, [] => progress.finish
  | progress, argument :: rest =>
    if !progress.pathsOnly && argument == "--format" then
      match rest with
      | [] => .error .misuse
      | name :: others =>
        match progress.addFormat name with
        | .error refusal => .error refusal
        | .ok progress => readArguments progress others
    else
      match readSingle progress argument with
      | .error refusal => .error refusal
      | .ok progress => readArguments progress rest

/-- The arguments that a command line gives. -/
def Arguments.ofList (arguments : List String) : Except Refusal Arguments :=
  readArguments Progress.start arguments

/-- What the program says about its arguments. -/
def usage : String :=
  "Usage: polylang [OPTIONS] <PATH>\n\n" ++
  "Arguments:\n" ++
  "  <PATH>  Schema file, or directory of schema files\n\n" ++
  "Options:\n" ++
  "      --format <FORMAT>  Output format: debug, json or summary [default: summary]\n" ++
  "      --pretty           Pretty-print JSON output\n" ++
  "  -h, --help             Print help\n"

end CollectionSchema.CommandLine
