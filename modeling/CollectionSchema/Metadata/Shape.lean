import CollectionSchema.Json.Shape
import CollectionSchema.Metadata.Model

/-!
# The shapes of metadata

Most parts of a metadata document carry their kind.  Where a kind that is not known
may stand, a fallback catches it.  Lists, texts and truth values may be left out in
many places and then are empty or false.
-/

set_option autoImplicit false

namespace CollectionSchema.Metadata

open Json (Form Shape Slot unitVariant)

/-- The parts of a metadata document that have a form of their own. -/
inductive Part where
  | node
  | «namespace»
  | attribute
  | directive
  | directiveArgument
  | indexField
  | sortOrder
  | methodAttribute
  | dataType
  | primitiveType
  | objectField
  deriving DecidableEq, Repr

namespace Part

/-- A part in the place of a shape. -/
def shape (part : Part) : Shape Part := .named part

/-- A text that must be there. -/
def text (name : String) : Slot Part := .required name .text

/-- A text that is empty when it is missing. -/
def optionalText (name : String) : Slot Part := ⟨name, .text, .defaulted (.string "")⟩

/-- A truth value that is false when it is missing. -/
def optionalFlag (name : String) : Slot Part := ⟨name, .flag, .defaulted (.bool false)⟩

/-- A list of parts that is empty when it is missing. -/
def optionalList (name : String) (part : Part) : Slot Part :=
  ⟨name, .list part.shape, .defaulted (.array [])⟩

/-- A part that must be there. -/
def slot (name : String) (part : Part) : Slot Part := .required name part.shape

/-- A list of texts that must be there. -/
def path (name : String) : Slot Part := .required name (.list .text)

/-- The document for a namespace. -/
def namespaceJson (value : String) : Json :=
  .object [("kind", .string "namespace"), ("value", .string value)]

/-- The fields of a directive. -/
def directiveSlots : List (Slot Part) :=
  [text "name", ⟨"arguments", Part.directiveArgument.shape, .omittable⟩]

/-- The form of each part. -/
def form : Part → Form Part
  | .node =>
    .tagged [("collection", [⟨"namespace", Part.namespace.shape, .defaulted (namespaceJson "")⟩,
      optionalText "name", optionalList "attributes" .attribute])] (some "unknown")
  | .namespace => .stamped "kind" "namespace" [text "kind", text "value"]
  | .attribute =>
    .tagged [
      ("property", [text "name", slot "type" .dataType, optionalList "directives" .directive,
        optionalFlag "required"]),
      ("method", [text "name", optionalList "attributes" .methodAttribute, optionalText "code"]),
      ("directive", directiveSlots),
      ("index", [optionalList "fields" .indexField])] (some "unknown")
  | .directive => .record directiveSlots
  | .directiveArgument => .tagged [("fieldreference", [path "path"])] (some "unknown")
  | .indexField => .record [slot "direction" .sortOrder, path "fieldPath"]
  | .sortOrder => .choice (SortOrder.all.map fun order => unitVariant order.word)
  | .methodAttribute =>
    .tagged [
      ("directive", directiveSlots),
      ("parameter", [text "name", slot "type" .dataType, optionalFlag "required"]),
      ("returnvalue", [text "name", slot "type" .dataType])] (some "unknown")
  | .dataType =>
    .tagged [
      ("primitive", [slot "value" .primitiveType]),
      ("array", [slot "value" .dataType]),
      ("map", [slot "key" .dataType, slot "value" .dataType]),
      ("object", [.required "fields" (.list Part.objectField.shape)]),
      ("record", []),
      ("foreignrecord", [text "collection"]),
      ("publickey", [])] none
  | .primitiveType => .choice (PrimitiveType.all.map fun type => unitVariant type.word)
  | .objectField => .record [text "name", slot "type" .dataType, optionalFlag "required"]

end Part

end CollectionSchema.Metadata
