import CollectionSchema.CommandLine.Arguments
import CollectionSchema.Diagnostic
import CollectionSchema.Json.Printer
import CollectionSchema.Log.Filter
import CollectionSchema.Source
import CollectionSchema.Syntax.Encode
import CollectionSchema.Syntax.Outline

/-!
# Running the program

A run parses one path and shows the result.  When parsing fails nothing is shown:
the exit code says so, and a syntax error is reported as a diagnostic against the
file in which it lies.  What the log has to say comes before that.
-/

set_option autoImplicit false

namespace CollectionSchema.CommandLine

/-- What a run leaves behind. -/
structure Outcome where
  code : Nat
  output : String
  errors : String
  deriving DecidableEq, Repr

/-! ## Output -/

/-- A declaration on a line, with the numbers of its parts. -/
def summaryLine : Declaration → String
  | .collection collection =>
    "collection " ++ collection.name ++ " (" ++ toString collection.fields.length ++ " fields, " ++
      toString collection.functions.length ++ " functions, " ++
      toString collection.indexes.length ++ " indexes) at " ++ collection.position.display ++ "\n"
  | .function function =>
    "function " ++ function.name ++ " (" ++ toString function.statements.length ++
      " statements) at " ++ function.position.display ++ "\n"

/-- A program with a line for each of its declarations. -/
def summary (program : Program) : String := String.join (program.declarations.map summaryLine)

/-- A program in a format. -/
def shown (format : OutputFormat) (pretty : Bool) (program : Program) : String :=
  match format with
  | .debug => program.outline.severalLines ++ "\n"
  | .json => (if pretty then program.toJson.pretty else program.toJson.compact) ++ "\n"
  | .summary => summary program

/-! ## Failure -/

/-- What is said about a failure: a diagnostic for a syntax error in a file that can be read, and
otherwise a line in the log. -/
def report (disk : Disk) (filter : LogFilter) (error : SchemaError) : String :=
  match error.syntaxError?, error.file? with
  | some found, some file =>
    match disk.read file with
    | .ok source => Diagnostic.render file source found
    | .error _ => filter.lines [.failed error]
  | some found, none => found.display ++ "\n"
  | none, _ => filter.lines [.failed error]

/-! ## Runs -/

/-- A run with arguments that fit. -/
def runWith (disk : Disk) (filter : LogFilter) (arguments : Arguments) : Outcome :=
  let log := filter.lines (disk.logPath arguments.path)
  match disk.parsePath arguments.path with
  | .ok program => ⟨0, shown arguments.format arguments.pretty program, log⟩
  | .error error => ⟨1, "", log ++ report disk filter error⟩

/-- A run with any arguments. -/
def run (disk : Disk) (filter : LogFilter) (arguments : List String) : Outcome :=
  match Arguments.ofList arguments with
  | .ok arguments => runWith disk filter arguments
  | .error .help => ⟨0, usage, ""⟩
  | .error .misuse => ⟨2, "", usage⟩

end CollectionSchema.CommandLine
