import CollectionSchema.Metadata.Shape

/-!
# Metadata as JSON

Each part is an object, and the kind of a part stands first in it.  A directive
without an argument leaves the argument out; everything else is always written.
-/

set_option autoImplicit false

namespace CollectionSchema.Metadata

/-- An object with a kind and further members. -/
def tagged (kind : String) (members : List (String × Json)) : Json :=
  .object (("kind", .string kind) :: members)

/-- The document for a part that is not known. -/
def unknownJson : Json := tagged "unknown" []

mutual

/-- A type as a document. -/
def DataType.toJson : DataType → Json
  | .primitive type => tagged "primitive" [("value", .string type.word)]
  | .array item => tagged "array" [("value", item.toJson)]
  | .map key value => tagged "map" [("key", key.toJson), ("value", value.toJson)]
  | .object fields => tagged "object" [("fields", .array (objectFieldsToJson fields))]
  | .record => tagged "record" []
  | .foreignRecord collection => tagged "foreignrecord" [("collection", .string collection)]
  | .publicKey => tagged "publickey" []

/-- A field of an object type as a document. -/
def ObjectField.toJson : ObjectField → Json
  | ⟨name, type, required⟩ =>
    .object [("name", .string name), ("type", type.toJson), ("required", .bool required)]

/-- The fields of an object type as documents. -/
def objectFieldsToJson : List ObjectField → List Json
  | [] => []
  | field :: rest => field.toJson :: objectFieldsToJson rest

end

/-- The argument of a directive as a document. -/
def DirectiveArgument.toJson : DirectiveArgument → Json
  | .fieldReference path => tagged "fieldreference" [("path", Json.ofList .string path)]
  | .unknown => unknownJson

/-- The members that describe a directive. -/
def Directive.members (directive : Directive) : List (String × Json) :=
  ("name", .string directive.name) ::
    match directive.argument with
    | none => []
    | some argument => [("arguments", argument.toJson)]

/-- A directive of a property as a document; it has no kind. -/
def Directive.toJson (directive : Directive) : Json := .object directive.members

/-- A part of a method as a document. -/
def MethodAttribute.toJson : MethodAttribute → Json
  | .directive part => tagged "directive" part.members
  | .parameter part =>
    tagged "parameter" [("name", .string part.name), ("type", part.type.toJson),
      ("required", .bool part.required)]
  | .returnValue part =>
    tagged "returnvalue" [("name", .string part.name), ("type", part.type.toJson)]
  | .unknown => unknownJson

/-- A field of an index as a document. -/
def IndexField.toJson (field : IndexField) : Json :=
  .object [("direction", .string field.direction.word),
    ("fieldPath", Json.ofList .string field.fieldPath)]

/-- A part of a collection as a document. -/
def Attribute.toJson : Attribute → Json
  | .property part =>
    tagged "property" [("name", .string part.name), ("type", part.type.toJson),
      ("directives", Json.ofList Directive.toJson part.directives),
      ("required", .bool part.required)]
  | .method part =>
    tagged "method" [("name", .string part.name),
      ("attributes", Json.ofList MethodAttribute.toJson part.attributes),
      ("code", .string part.code)]
  | .directive part => tagged "directive" part.members
  | .index part => tagged "index" [("fields", Json.ofList IndexField.toJson part.fields)]
  | .unknown => unknownJson

/-- An entry as a document. -/
def Node.toJson : Node → Json
  | .collection described =>
    tagged "collection" [("namespace", Part.namespaceJson described.space),
      ("name", .string described.name),
      ("attributes", Json.ofList Attribute.toJson described.attributes)]
  | .unknown => unknownJson

/-- A metadata document. -/
def Root.toJson (root : Root) : Json := Json.ofList Node.toJson root

end CollectionSchema.Metadata
