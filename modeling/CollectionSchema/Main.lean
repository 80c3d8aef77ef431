import CollectionSchema.CommandLine.Run

/-!
# The program

This is the only module that touches the world.  It looks at the path that it was
given and, for a directory, at the schema files in it; with what it found there it
runs the program and writes the outcome.
-/

set_option autoImplicit false

namespace CollectionSchema

/-- What an error of the system says about a path. -/
def ReadProblem.ofError : IO.Error → ReadProblem
  | .noFileOrDirectory _ _ _ => .notFound
  | .inappropriateType _ _ _ => .notADirectory
  | error => .other (toString error)

/-- The entries of a directory. -/
def listEntries (path : String) : IO (List Entry) := do
  let place := (← IO.currentDir) / path
  (← place.readDir).toList.mapM fun entry => do
    return ⟨entry.fileName, (← entry.path.metadata).type == .dir⟩

/-- What stands at a path. -/
def examine (path : String) : IO Finding := do
  if path.isEmpty then return .missing .notFound
  try
    let place := (← IO.currentDir) / path
    if (← place.metadata).type == .dir then return .directory (← listEntries path)
    else return .file (← IO.FS.readBinFile place)
  catch error => return .missing (ReadProblem.ofError error)

/-- What stands at the paths that a run may look at. -/
def takeStock (path : String) : IO (List (String × Finding)) := do
  let found ← examine path
  match found with
  | .directory entries =>
    let files := (sourceEntries entries).map fun entry => entryPath path entry.name
    return (path, found) :: (← files.mapM fun file => do return (file, ← examine file))
  | _ => return [(path, found)]

/-- A disk on which only certain paths are known. -/
def Disk.ofStock (stock : List (String × Finding)) : Disk :=
  ⟨fun path => (stock.lookup path).getD (.missing .notFound)⟩

/-- A run of the program in the world. -/
def execute (arguments : List String) : IO UInt32 := do
  let filter := LogFilter.ofSetting (← IO.getEnv "RUST_LOG")
  let stock ← match CommandLine.Arguments.ofList arguments with
    | .ok known => takeStock known.path
    | .error _ => pure []
  let outcome := CommandLine.run (Disk.ofStock stock) filter arguments
  (← IO.getStdout).putStr outcome.output
  (← IO.getStderr).putStr outcome.errors
  return outcome.code.toUInt32

end CollectionSchema

/-- The program. -/
def main (arguments : List String) : IO UInt32 := CollectionSchema.execute arguments
