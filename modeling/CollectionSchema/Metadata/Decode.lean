import CollectionSchema.Json.Conform
import CollectionSchema.Metadata.Encode

/-!
# Metadata from JSON

A text is checked against the shape of metadata, and the canonical document that
this gives is taken apart.  Whatever the shape does not know has been dropped by
then, so a document that says more than this library understands is still read.
-/

set_option autoImplicit false

namespace CollectionSchema.Metadata

mutual

/-- A type from its document. -/
def DataType.ofJson? : Json → Option DataType
  | .object [("kind", .string "primitive"), ("value", .string type)] => do
    return .primitive (← PrimitiveType.ofWord? type)
  | .object [("kind", .string "array"), ("value", item)] => do
    return .array (← DataType.ofJson? item)
  | .object [("kind", .string "map"), ("key", key), ("value", value)] => do
    return .map (← DataType.ofJson? key) (← DataType.ofJson? value)
  | .object [("kind", .string "object"), ("fields", .array fields)] => do
    return .object (← objectFieldsOfJson? fields)
  | .object [("kind", .string "record")] => some .record
  | .object [("kind", .string "foreignrecord"), ("collection", .string collection)] =>
    some (.foreignRecord collection)
  | .object [("kind", .string "publickey")] => some .publicKey
  | _ => none

/-- A field of an object type from its document. -/
def ObjectField.ofJson? : Json → Option ObjectField
  | .object [("name", .string name), ("type", type), ("required", .bool required)] => do
    return ⟨name, ← DataType.ofJson? type, required⟩
  | _ => none

/-- The fields of an object type from their documents. -/
def objectFieldsOfJson? : List Json → Option (List ObjectField)
  | [] => some []
  | field :: rest => do return (← ObjectField.ofJson? field) :: (← objectFieldsOfJson? rest)

end

/-- The argument of a directive from its document. -/
def DirectiveArgument.ofJson? : Json → Option DirectiveArgument
  | .object [("kind", .string "fieldreference"), ("path", path)] => do
    return .fieldReference (← Json.list? Json.text? path)
  | .object [("kind", .string "unknown")] => some .unknown
  | _ => none

/-- A directive from the members that describe it. -/
def Directive.ofMembers? : List (String × Json) → Option Directive
  | [("name", .string name)] => some ⟨name, none⟩
  | [("name", .string name), ("arguments", argument)] => do
    return ⟨name, some (← DirectiveArgument.ofJson? argument)⟩
  | _ => none

/-- A directive of a property from its document. -/
def Directive.ofJson? : Json → Option Directive
  | .object members => Directive.ofMembers? members
  | _ => none

/-- A part of a method from its document. -/
def MethodAttribute.ofJson? : Json → Option MethodAttribute
  | .object (("kind", .string "directive") :: members) => do
    return .directive (← Directive.ofMembers? members)
  | .object [("kind", .string "parameter"), ("name", .string name), ("type", type),
      ("required", .bool required)] => do
    return .parameter ⟨name, ← DataType.ofJson? type, required⟩
  | .object [("kind", .string "returnvalue"), ("name", .string name), ("type", type)] => do
    return .returnValue ⟨name, ← DataType.ofJson? type⟩
  | .object [("kind", .string "unknown")] => some .unknown
  | _ => none

/-- A field of an index from its document. -/
def IndexField.ofJson? : Json → Option IndexField
  | .object [("direction", .string direction), ("fieldPath", path)] => do
    return ⟨← SortOrder.ofWord? direction, ← Json.list? Json.text? path⟩
  | _ => none

/-- A part of a collection from its document. -/
def Attribute.ofJson? : Json → Option Attribute
  | .object [("kind", .string "property"), ("name", .string name), ("type", type),
      ("directives", directives), ("required", .bool required)] => do
    return .property
      ⟨name, ← DataType.ofJson? type, ← Json.list? Directive.ofJson? directives, required⟩
  | .object [("kind", .string "method"), ("name", .string name), ("attributes", attributes),
      ("code", .string code)] => do
    return .method ⟨name, ← Json.list? MethodAttribute.ofJson? attributes, code⟩
  | .object (("kind", .string "directive") :: members) => do
    return .directive (← Directive.ofMembers? members)
  | .object [("kind", .string "index"), ("fields", fields)] => do
    return .index ⟨← Json.list? IndexField.ofJson? fields⟩
  | .object [("kind", .string "unknown")] => some .unknown
  | _ => none

/-- An entry from its document. -/
def Node.ofJson? : Json → Option Node
  | .object [("kind", .string "collection"),
      ("namespace", .object [("kind", .string "namespace"), ("value", .string space)]),
      ("name", .string name), ("attributes", attributes)] => do
    return .collection ⟨space, name, ← Json.list? Attribute.ofJson? attributes⟩
  | .object [("kind", .string "unknown")] => some .unknown
  | _ => none

/-- A metadata document from a text. -/
def decode (text : String) : Except Json.Failure Root := do
  match Json.list? Node.ofJson? (← Json.decode Part.form (.list Part.node.shape) text) with
  | some root => return root
  | none => Json.mismatch .wrongType

end CollectionSchema.Metadata
