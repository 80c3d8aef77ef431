import CollectionSchema.Json.Reader
import CollectionSchema.Json.Shape

/-!
# Checking a document against a shape

A reading that has a shape is turned into the canonical document for what it says:
records are objects with their fields in order, fields with a default are written
out, and everything that the shape does not ask for is dropped.  A reading that does
not have the shape gives the first failure in the order of the text.

A tagged record is taken in as a whole before its fields are looked at.  From then
on its parts are no longer read from the text, and a few faults that would have been
faults of the text are now faults of the shape; a kind may then be given by its
number, too.
-/

set_option autoImplicit false

namespace CollectionSchema.Json

/-- Whether a document is still being read or was taken in before. -/
inductive Stage where
  /-- The document is being read from its text. -/
  | streamed
  /-- The document belongs to a tagged record that was taken in as a whole. -/
  | buffered
  deriving DecidableEq, Repr

/-- Checks a reading against a shape. -/
abbrev Checker (Name : Type) := Stage → Shape Name → Reading → Except Failure Json

/-- What may lie inside an array or an object: how deep it may go, and how it is checked. -/
structure Inside (Name : Type) where
  depth : Nat
  check : Checker Name

/-- A mismatch as the outcome of a check. -/
def mismatch {α : Type} (detail : Mismatch) : Except Failure α := .error (.mismatch detail)

variable {Name : Type}

/-! ## Records -/

/-- Whether null stands for the absence of a field. -/
def Presence.allowsNull : Presence → Bool
  | .nullable | .omittable => true
  | .required | .defaulted _ => false

/-- Checks the value of a field. -/
def checkSlot (inside : Inside Name) (stage : Stage) (slot : Slot Name) (value : Reading) :
    Except Failure Json :=
  match slot.presence.allowsNull, value with
  | true, .null => .ok .null
  | _, _ => inside.check stage slot.shape value

/-- The fields among the members of an object, in the order of the object.  A field that is met
again is an error before its value is looked at. -/
def gather (inside : Inside Name) (stage : Stage) (slots : List (Slot Name)) :
    List (Reading × Reading) → List (String × Json) → Except Failure (List (String × Json))
  | [], found => .ok found
  | (key, value) :: rest, found => do
    let name ← key.keyText
    match slots.find? fun slot => slot.name == name with
    | none =>
      value.pass
      gather inside stage slots rest found
    | some slot =>
      if found.any fun field => field.1 == name then mismatch (.duplicateField name)
      else
        let checked ← checkSlot inside stage slot value
        gather inside stage slots rest (found ++ [(name, checked)])

/-- The canonical members for a field that is there. -/
def present (slot : Slot Name) (value : Json) : List (String × Json) :=
  match slot.presence, value with
  | .omittable, .null => []
  | _, _ => [(slot.name, value)]

/-- The canonical members for a field that an object lacks. -/
def lacking (slot : Slot Name) : Except Failure (List (String × Json)) :=
  match slot.presence with
  | .required => mismatch (.missingField slot.name)
  | .nullable => .ok [(slot.name, .null)]
  | .omittable => .ok []
  | .defaulted value => .ok [(slot.name, value)]

/-- The canonical members of a record, from the fields that an object has. -/
def arrange (found : List (String × Json)) :
    List (Slot Name) → Except Failure (List (String × Json))
  | [] => .ok []
  | slot :: rest => do
    let first ← match found.lookup slot.name with
      | some value => pure (present slot value)
      | none => lacking slot
    return first ++ (← arrange found rest)

/-- The canonical members of a record that is written as an object. -/
def recordOfMembers (inside : Inside Name) (stage : Stage) (slots : List (Slot Name))
    (members : List (Reading × Reading)) (closing : Closing) :
    Except Failure (List (String × Json)) := do
  let found ← gather inside stage slots members []
  closing.check
  arrange found slots

/-- What it means that an array has more items than its shape. -/
def tooMany {α : Type} : Stage → Except Failure α
  | .streamed => .error .malformed
  | .buffered => mismatch .wrongLength

/-- The canonical members of a record that is written as an array.  Fields at its end that have a
default may be left off. -/
def recordOfItems (inside : Inside Name) (stage : Stage) :
    List (Slot Name) → List Reading → Closing → Except Failure (List (String × Json))
  | [], [], closing => do
    closing.check
    return []
  | [], _ :: _, _ => tooMany stage
  | slot :: slots, [], closing => do
    closing.check
    let first ← match slot.presence with
      | .required | .nullable => mismatch .wrongLength
      | .omittable => pure []
      | .defaulted value => pure [(slot.name, value)]
    return first ++ (← recordOfItems inside stage slots [] closing)
  | slot :: slots, item :: items, closing => do
    let value ← checkSlot inside stage slot item
    return present slot value ++ (← recordOfItems inside stage slots items closing)

/-! ## Forms -/

/-- Goes into an array or an object, which must not lie too deep. -/
def enter (inside : Option (Inside Name)) : Except Failure (Inside Name) :=
  match inside with
  | none => .error .malformed
  | some inside => .ok inside

/-- What it means that a value has another type than its shape. -/
def otherType {α : Type} : Reading → Except Failure α
  | .fault _ decoding _ => .error decoding
  | _ => mismatch .wrongType

/-- The canonical members of a record. -/
def checkRecord (inside : Option (Inside Name)) (stage : Stage) (slots : List (Slot Name)) :
    Reading → Except Failure (List (String × Json))
  | .object members closing => do
    recordOfMembers (← enter inside) stage slots members closing
  | .array items closing => do
    recordOfItems (← enter inside) stage slots items closing
  | other => otherType other

/-- Checks the items of a tuple. -/
def checkTuple (inside : Inside Name) (stage : Stage) :
    List (Shape Name) → List Reading → Closing → Except Failure (List Json)
  | [], [], closing => do
    closing.check
    return []
  | [], _ :: _, _ => tooMany stage
  | _ :: _, [], closing => do
    closing.check
    mismatch .wrongLength
  | shape :: shapes, item :: items, closing => do
    let value ← inside.check stage shape item
    return value :: (← checkTuple inside stage shapes items closing)

/-- Checks the items of a list. -/
def checkItems (inside : Inside Name) (stage : Stage) (shape : Shape Name) :
    List Reading → Except Failure (List Json)
  | [] => .ok []
  | item :: rest => do
    let value ← inside.check stage shape item
    return value :: (← checkItems inside stage shape rest)

/-- The content of a variant by its name; the names are listed when none fits. -/
def variant {α : Type} (variants : List (String × α)) (name : String) : Except Failure α :=
  match variants.lookup name with
  | some content => .ok content
  | none => mismatch (.unknownVariant name (variants.map Prod.fst))

/-- Checks the content of a variant that has none.  Null is such a content, and so is an empty
object once it was taken in. -/
def checkUnit (stage : Stage) : Reading → Except Failure Unit
  | .null => .ok ()
  | .object [] .closed => if stage = .buffered then .ok () else mismatch .wrongType
  | other => otherType other

/-- Checks an object that names a variant and holds its content. -/
def checkVariant (inside : Inside Name) (stage : Stage)
    (variants : List (String × Option (Shape Name))) (key value : Reading) :
    Except Failure Json := do
  let name ← key.keyText
  match ← variant variants name with
  | none =>
    checkUnit stage value
    return .string name
  | some shape => return .single name (← inside.check stage shape value)

/-- Checks a choice that is written as an object. -/
def checkChoiceObject (inside : Inside Name) (stage : Stage)
    (variants : List (String × Option (Shape Name))) (members : List (Reading × Reading))
    (closing : Closing) : Except Failure Json :=
  match stage, members with
  | .streamed, [] => do
    closing.check
    throw .malformed
  | .streamed, (key, value) :: rest => do
    let checked ← checkVariant inside stage variants key value
    if rest.isEmpty then
      closing.check
      return checked
    else throw .malformed
  | .buffered, [(key, value)] => checkVariant inside stage variants key value
  | .buffered, _ => mismatch .wrongValue

/-- Checks a choice. -/
def checkChoice (inside : Option (Inside Name)) (stage : Stage)
    (variants : List (String × Option (Shape Name))) : Reading → Except Failure Json
  | .string name => do
    match ← variant variants name with
    | none => return .string name
    | some _ => mismatch .wrongType
  | .object members closing => do
    checkChoiceObject (← enter inside) stage variants members closing
  | .fault none decoding _ => .error decoding
  | .fault (some '"') decoding _ => .error decoding
  | _ =>
    match stage with
    | .streamed => .error .malformed
    | .buffered => mismatch .wrongType

/-! ## Tagged records -/

/-- A kind and the fields that belong to it. -/
abbrev Kind (Name : Type) := String × List (Slot Name)

/-- The kind that stands for all kinds without a name of their own. -/
def unknownKind (fallback : Option String) (mismatched : Mismatch) : Except Failure (Kind Name) :=
  match fallback with
  | some name => .ok (name, [])
  | none => mismatch mismatched

/-- The kind that a reading names. -/
def kindOf (stage : Stage) (variants : List (Kind Name)) (fallback : Option String) :
    Reading → Except Failure (Kind Name)
  | .string name =>
    match variants.find? fun kind => kind.1 == name with
    | some kind => .ok kind
    | none => unknownKind fallback (.unknownVariant name (variants.map Prod.fst))
  | .integer value =>
    if stage = .buffered ∧ 0 ≤ value then
      match variants[value.toNat]? with
      | some kind => .ok kind
      | none => unknownKind fallback .wrongValue
    else mismatch .wrongType
  | other => otherType other

/-- The kind of a tagged record, and its members without the kind. -/
def splitKind (inside : Inside Name) (stage : Stage) (variants : List (Kind Name))
    (fallback : Option String) :
    List (Reading × Reading) → Option (Kind Name) →
      Except Failure (Option (Kind Name) × List (Reading × Reading))
  | [], kind => .ok (kind, [])
  | (key, value) :: rest, kind => do
    let name ← key.keyText
    if name = "kind" then
      if kind.isSome then mismatch (.duplicateField "kind")
      else
        let found ← kindOf stage variants fallback value
        splitKind inside stage variants fallback rest (some found)
    else
      value.whole inside.depth
      let (found, others) ← splitKind inside stage variants fallback rest kind
      return (found, (key, value) :: others)

/-- The canonical document of a tagged record. -/
def taggedObject (kind : Kind Name) (fields : List (String × Json)) : Json :=
  .object (("kind", .string kind.1) :: fields)

/-- Checks a tagged record. -/
def checkTagged (inside : Option (Inside Name)) (stage : Stage) (variants : List (Kind Name))
    (fallback : Option String) : Reading → Except Failure Json
  | .object members closing => do
    let inside ← enter inside
    let (kind, others) ← splitKind inside stage variants fallback members none
    closing.check
    match kind with
    | none => mismatch (.missingField "kind")
    | some kind =>
      return taggedObject kind (← recordOfMembers inside .buffered kind.2 others .closed)
  | .array [] closing => do
    let _ ← enter inside
    closing.check
    mismatch (.missingField "kind")
  | .array (first :: others) closing => do
    let inside ← enter inside
    let kind ← kindOf stage variants fallback first
    Reading.wholeItems inside.depth others
    closing.check
    return taggedObject kind (← recordOfItems inside .buffered kind.2 others .closed)
  | other => otherType other

/-! ## Shapes -/

/-- Checks that a field of a record holds a fixed text. -/
def checkStamp (field stamp : String) (fields : List (String × Json)) : Except Failure Json :=
  match fields.lookup field with
  | some (.string text) =>
    if text = stamp then .ok (.object fields)
    else mismatch (.refused ("invalid '" ++ text ++ "' " ++ field ++ " type"))
  | _ => mismatch .wrongType

/-- Checks a reading against the form of a name. -/
def checkForm (inside : Option (Inside Name)) (stage : Stage) (form : Form Name)
    (reading : Reading) : Except Failure Json :=
  match form with
  | .record slots => do return .object (← checkRecord inside stage slots reading)
  | .stamped field stamp slots => do
    checkStamp field stamp (← checkRecord inside stage slots reading)
  | .choice variants => checkChoice inside stage variants reading
  | .tuple items =>
    match reading with
    | .array found closing => do
      return .array (← checkTuple (← enter inside) stage items found closing)
    | other => otherType other
  | .tagged variants fallback => checkTagged inside stage variants fallback reading

/-- Checks a reading against a shape, when it is known what may lie inside it. -/
def checkShape (table : Name → Form Name) (inside : Option (Inside Name)) : Checker Name
  | _, .text, .string text => .ok (.string text)
  | _, .flag, .bool truth => .ok (.bool truth)
  | _, .natural, .integer value =>
    if 0 ≤ value then .ok (.integer value) else mismatch .wrongValue
  | _, .integer, .integer value =>
    if Text.fitsInteger64 value then .ok (.integer value) else mismatch .wrongValue
  | stage, .list shape, .array items closing => do
    let values ← checkItems (← enter inside) stage shape items
    closing.check
    return .array values
  | stage, .named name, reading => checkForm inside stage (table name) reading
  | _, _, reading => otherType reading

/-- Checks a reading against a shape, with at most a number of arrays and objects inside each
other. -/
def conform (table : Name → Form Name) : Nat → Checker Name
  | 0 => checkShape table none
  | depth + 1 => checkShape table (some ⟨depth, conform table depth⟩)

/-- How many arrays and objects may lie inside each other. -/
def maxDepth : Nat := 127

/-- The canonical document for a text that has a shape.  Only blanks may follow the document. -/
def decode (table : Name → Form Name) (shape : Shape Name) (text : String) :
    Except Failure Json := do
  let (reading, rest) := Reading.ofText text.toList
  let value ← conform table maxDepth .streamed shape reading
  match rest.map skipBlanks with
  | some [] => return value
  | _ => throw .malformed

end CollectionSchema.Json
