/-!
# JSON values

A JSON document as data.  Objects keep the order of their members, and a key may
stand in them more than once.  A number that is an integer in at most 64 bits is
held as such; any other number is held by the characters that write it, since
nothing here calculates with it.
-/

set_option autoImplicit false

namespace CollectionSchema

/-- A JSON document. -/
inductive Json where
  | null
  | bool (truth : Bool)
  | integer (value : Int)
  | decimal (written : List Char)
  | string (text : String)
  | array (items : List Json)
  | object (members : List (String × Json))
  deriving Inhabited

namespace Json

mutual

/-- How many arrays and objects lie inside each other at the deepest place of a document. -/
def depth : Json → Nat
  | .array items => depthOfItems items + 1
  | .object members => depthOfMembers members + 1
  | _ => 0

/-- The greatest depth in a list of documents. -/
def depthOfItems : List Json → Nat
  | [] => 0
  | item :: rest => max (depth item) (depthOfItems rest)

/-- The greatest depth among the members of an object. -/
def depthOfMembers : List (String × Json) → Nat
  | [] => 0
  | (_, value) :: rest => max (depth value) (depthOfMembers rest)

end

/-- An object with a single member. -/
def single (key : String) (value : Json) : Json := .object [(key, value)]

/-! ## Lists and optional parts -/

/-- A list of parts as an array. -/
def ofList {α : Type} (write : α → Json) (parts : List α) : Json := .array (parts.map write)

/-- A list of parts from its document. -/
def list? {α : Type} (read : Json → Option α) : Json → Option (List α)
  | .array items => items.mapM read
  | _ => none

/-- A part that may be missing; then null stands for it. -/
def ofOption {α : Type} (write : α → Json) : Option α → Json
  | none => .null
  | some value => write value

/-- A part that may be missing, from its document. -/
def option? {α : Type} (read : Json → Option α) : Json → Option (Option α)
  | .null => some none
  | value => (read value).map some

/-- A text from its document. -/
def text? : Json → Option String
  | .string text => some text
  | _ => none

end Json

end CollectionSchema
