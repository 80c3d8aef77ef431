import CollectionSchema.Grammar.Session
import CollectionSchema.Log.Event
import CollectionSchema.Metadata.Decode

/-!
# Schemas on disk

A schema is loaded from a file, or from a directory with several files.  Of a
directory those entries count that are no directories themselves and whose names
have the extension of schema files.  They are read in the order of their names, and
the declarations of all of them make one program.  The first file that fails ends
the loading, with the program of the files before it as part of the error.

What is noted in the log on the way is stated beside each step.
-/

set_option autoImplicit false

namespace CollectionSchema

/-- The extension of schema files. -/
def sourceExtension : String := "polylang"

/-- Whether an entry of a directory is a schema file. -/
def Entry.isSource (entry : Entry) : Bool :=
  !entry.isDirectory && extension? entry.name == some sourceExtension

/-- The entries of a directory that are schema files, in the order of their names. -/
def sourceEntries (entries : List Entry) : List Entry :=
  (entries.filter Entry.isSource).mergeSort fun first second => decide (first.name ≤ second.name)

/-- What is noted while a text is parsed. -/
def logText (source : String) : List LogEvent :=
  match tokenize source with
  | .error _ => []
  | .ok tokens =>
    .tokenized tokens.length ::
      match parse tokens with
      | .error _ => []
      | .ok program => [.parsed program.declarations.length tokens.length]

namespace Disk

/-! ## Single files -/

/-- The program in a file. -/
def parseFile (disk : Disk) (path : String) : Except SchemaError Program :=
  match disk.read path with
  | .error problem => .error (.unreadable path problem)
  | .ok source => (parseText source).mapError (SchemaError.source (some path))

/-- What is noted while a file is parsed. -/
def logFile (disk : Disk) (path : String) : List LogEvent :=
  match disk.read path with
  | .error _ => []
  | .ok source =>
    logText source ++
      match parseText source with
      | .error _ => []
      | .ok program => [.parsedFile path program.declarations.length]

/-- The metadata document in a file. -/
def loadMetadata (disk : Disk) (path : String) : Except SchemaError Metadata.Root :=
  match disk.read path with
  | .error problem => .error (.unreadable path problem)
  | .ok text => (Metadata.decode text).mapError (SchemaError.metadata (some path))

/-! ## Directories -/

/-- The paths of the schema files in a directory, in the order of their names. -/
def sourceFiles (disk : Disk) (directory : String) : Except SchemaError (List String) :=
  match disk.list directory with
  | .error problem => .error (.unreadable directory problem)
  | .ok entries =>
    .ok ((sourceEntries entries).map fun entry => entryPath directory entry.name)

/-- The program in several files, behind the program that was read before them. -/
def parseFiles (disk : Disk) : List String → Program → Except SchemaError Program
  | [], before => .ok before
  | file :: rest, before =>
    match disk.parseFile file with
    | .error error => .error (.directory file error before)
    | .ok program => disk.parseFiles rest (before.append program)

/-- The program in a directory. -/
def parseDirectory (disk : Disk) (directory : String) : Except SchemaError Program :=
  match disk.sourceFiles directory with
  | .error error => .error error
  | .ok files => disk.parseFiles files Program.empty

/-- What is noted about an entry that is passed over. -/
def logEntry (directory : String) (entry : Entry) : List LogEvent :=
  if entry.isDirectory then [.skippedDirectory (entryPath directory entry.name)]
  else if entry.isSource then []
  else [.skippedFile (entryPath directory entry.name)]

/-- What is noted while several files are parsed. -/
def logFiles (disk : Disk) : List String → List LogEvent
  | [] => []
  | file :: rest =>
    disk.logFile file ++
      match disk.parseFile file with
      | .error error => [.stopped file error]
      | .ok _ => disk.logFiles rest

/-- What is noted while a directory is parsed. -/
def logDirectory (disk : Disk) (directory : String) : List LogEvent :=
  match disk.list directory with
  | .error _ => []
  | .ok entries =>
    let files := (sourceEntries entries).map fun entry => entryPath directory entry.name
    entries.flatMap (logEntry directory) ++ disk.logFiles files ++
      match disk.parseFiles files Program.empty with
      | .error _ => []
      | .ok program => [.parsedDirectory directory files.length program.declarations.length]

/-! ## Paths -/

/-- The program at a path, which may be a file or a directory. -/
def parsePath (disk : Disk) (path : String) : Except SchemaError Program :=
  match disk.find path with
  | .missing problem => .error (.unreadable path problem)
  | .directory _ => disk.parseDirectory path
  | .file _ => disk.parseFile path

/-- What is noted while a path is parsed. -/
def logPath (disk : Disk) (path : String) : List LogEvent :=
  match disk.find path with
  | .missing _ => []
  | .directory _ => disk.logDirectory path
  | .file _ => disk.logFile path

end Disk

end CollectionSchema
