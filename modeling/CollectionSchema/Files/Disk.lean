/-!
# Files and directories

A disk says what stands at each path: a file with its bytes, a directory with its
entries, or nothing that can be used.  Paths are kept as they were given, and the
path of an entry is the path of its directory with the name of the entry behind it.
-/

set_option autoImplicit false

namespace CollectionSchema

/-- Why a file or directory cannot be read. -/
inductive ReadProblem where
  | notFound
  | notADirectory
  | isADirectory
  /-- The content of the file is not UTF-8. -/
  | invalidText
  | other (reason : String)
  deriving DecidableEq, Repr

/-- The words for a problem with reading. -/
def ReadProblem.text : ReadProblem → String
  | .notFound => "No such file or directory (os error 2)"
  | .notADirectory => "Not a directory (os error 20)"
  | .isADirectory => "Is a directory (os error 21)"
  | .invalidText => "stream did not contain valid UTF-8"
  | .other reason => reason

/-- One entry of a directory. -/
structure Entry where
  name : String
  isDirectory : Bool
  deriving DecidableEq, Repr

/-- What stands at a path. -/
inductive Finding where
  | missing (problem : ReadProblem)
  | file (content : ByteArray)
  | directory (entries : List Entry)

/-- What stands at each path. -/
structure Disk where
  find : String → Finding

namespace Disk

/-- The text of a file. -/
def read (disk : Disk) (path : String) : Except ReadProblem String :=
  match disk.find path with
  | .missing problem => .error problem
  | .directory _ => .error .isADirectory
  | .file content =>
    match String.fromUTF8? content with
    | some text => .ok text
    | none => .error .invalidText

/-- The entries of a directory. -/
def list (disk : Disk) (path : String) : Except ReadProblem (List Entry) :=
  match disk.find path with
  | .missing problem => .error problem
  | .file _ => .error .notADirectory
  | .directory entries => .ok entries

end Disk

/-- The path of an entry in a directory. -/
def entryPath (directory name : String) : String :=
  if directory.toList.getLast? = some '/' then directory ++ name else directory ++ "/" ++ name

/-- What follows the last dot of a file name.  A name whose only dot stands at its front has no
extension. -/
def extension? (name : String) : Option String :=
  let backwards := name.toList.reverse
  match backwards.dropWhile (· ≠ '.') with
  | _ :: _ :: _ => some (String.ofList (backwards.takeWhile (· ≠ '.')).reverse)
  | _ => none

end CollectionSchema
