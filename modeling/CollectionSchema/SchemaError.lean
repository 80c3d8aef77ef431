import CollectionSchema.Files.Disk
import CollectionSchema.Json.Failure
import CollectionSchema.Syntax.Program
import CollectionSchema.SyntaxError

/-!
# Errors of loading a schema

Loading a schema fails because a text is no schema, because a file or directory
cannot be read, or because a metadata document has the wrong shape.  When a file
of a directory fails, the error also holds the program that the files before it
gave; it is there to look at and not a result.
-/

set_option autoImplicit false

namespace CollectionSchema

/-- Every way in which loading a schema can fail. -/
inductive SchemaError where
  /-- A text is no schema; a text that was not read from a file has none. -/
  | source (file : Option String) (error : SyntaxError)
  /-- A file or directory cannot be read. -/
  | unreadable (path : String) (problem : ReadProblem)
  /-- A metadata document cannot be decoded. -/
  | metadata (file : Option String) (failure : Json.Failure)
  /-- A file of a directory failed, after the files before it had given a program. -/
  | directory (file : String) (inner : SchemaError) (partialProgram : Program)

namespace SchemaError

/-- The error on one line. -/
def display : SchemaError → String
  | .source none error => error.display
  | .source (some file) error => file ++ ": " ++ error.display
  | .unreadable path problem => "failed to read " ++ path ++ ": " ++ problem.text
  | .metadata none failure => "invalid metadata: " ++ failure.text
  | .metadata (some file) failure => "invalid metadata in " ++ file ++ ": " ++ failure.text
  | .directory file inner _ => "directory parse stopped at " ++ file ++ ": " ++ inner.display

/-- What lies behind the error, from the outside to the inside, each on one line. -/
def causes : SchemaError → List String
  | .source _ _ => []
  | .unreadable _ problem => [problem.text]
  | .metadata _ failure => [failure.text]
  | .directory _ inner _ => inner.display :: inner.causes

/-- The syntax error at the root, if there is one. -/
def syntaxError? : SchemaError → Option SyntaxError
  | .source _ error => some error
  | .unreadable _ _ => none
  | .metadata _ _ => none
  | .directory _ inner _ => inner.syntaxError?

/-- The file that failed, if it is known. -/
def file? : SchemaError → Option String
  | .source file _ => file
  | .unreadable path _ => some path
  | .metadata file _ => file
  | .directory file inner _ => inner.file?.or (some file)

/-- The program of the files before the one that failed. -/
def partialProgram? : SchemaError → Option Program
  | .directory _ _ program => some program
  | _ => none

end SchemaError

end CollectionSchema
