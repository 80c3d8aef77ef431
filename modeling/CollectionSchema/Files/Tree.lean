import CollectionSchema.Files.Disk

/-!
# File trees

A file tree is a directory with everything in it, as a value.  Paths are looked up
from the top of the tree, step by step; every step needs a directory to start from,
so a path with a slash behind the name of a file leads nowhere.  Nothing outside the
tree can be reached.
-/

set_option autoImplicit false

namespace CollectionSchema

/-- A file, or a directory with everything in it. -/
inductive FileTree where
  | file (content : ByteArray)
  | directory (entries : List (String × FileTree))

namespace FileTree

/-- The steps of a path: the pieces between its slashes. -/
def steps : List Char → List (List Char)
  | [] => [[]]
  | character :: rest =>
    if character = '/' then [] :: steps rest
    else match steps rest with
      | [] => [[character]]
      | step :: others => (character :: step) :: others

/-- The steps of a path as names. -/
def names (path : String) : List String := (steps path.toList).map String.ofList

/-- Follows the steps of a path from a place in a tree, with the directories above that place. -/
def follow : List String → List FileTree → FileTree → Except ReadProblem FileTree
  | [], _, place => .ok place
  | _ :: _, _, .file _ => .error .notADirectory
  | name :: rest, above, .directory entries =>
    if name = "" || name = "." then follow rest above (.directory entries)
    else if name = ".." then
      match above with
      | [] => .error .notFound
      | parent :: others => follow rest others parent
    else
      match entries.lookup name with
      | none => .error .notFound
      | some child => follow rest (.directory entries :: above) child

/-- Whether a tree is a directory. -/
def isDirectory : FileTree → Bool
  | .directory _ => true
  | .file _ => false

/-- A place in a tree as it is found at a path; the entries of a directory are listed by name. -/
def finding : FileTree → Finding
  | .file content => .file content
  | .directory entries =>
    .directory ((entries.map fun entry => ⟨entry.1, entry.2.isDirectory⟩).mergeSort
      fun first second => decide (first.name ≤ second.name))

/-- What stands at a path of a tree. -/
def find (tree : FileTree) (path : String) : Finding :=
  if path = "" || path.toList.head? = some '/' then .missing .notFound
  else match follow (names path) [] tree with
    | .ok place => place.finding
    | .error problem => .missing problem

/-- A tree as a disk. -/
def disk (tree : FileTree) : Disk := ⟨tree.find⟩

/-- The entries of a directory with one of them changed; it is appended when it is not there. -/
def update (name : String) (change : Option FileTree → FileTree) :
    List (String × FileTree) → List (String × FileTree)
  | [] => [(name, change none)]
  | (other, child) :: rest =>
    if other = name then (other, change (some child)) :: rest
    else (other, child) :: update name change rest

/-- A tree with something put at the end of some steps; directories on the way are created. -/
def put (added : FileTree) : List String → FileTree → FileTree
  | [], .directory entries =>
    match added with
    | .directory [] => .directory entries
    | other => other
  | [], .file _ => added
  | _ :: _, .file content => .file content
  | name :: rest, .directory entries =>
    .directory (update name (fun child => put added rest (child.getD (.directory []))) entries)

/-- A tree with something put at a path. -/
def insert (tree : FileTree) (path : String) (added : FileTree) : FileTree :=
  put added ((names path).filter fun name => name != "" && name != ".") tree

/-- The tree without files. -/
def empty : FileTree := .directory []

end FileTree

end CollectionSchema
