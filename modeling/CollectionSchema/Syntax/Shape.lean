import CollectionSchema.Json.Shape
import CollectionSchema.Syntax.Operator
import CollectionSchema.Syntax.Word

/-!
# The shapes of programs

The table below says which JSON documents stand for programs and their parts.  It
covers every part that has a form of its own; the members of its records stand in
the order in which they are written.
-/

set_option autoImplicit false

namespace CollectionSchema

open Json (Form Shape Slot unitVariant)

/-- The parts of a program that have a form of their own in JSON. -/
inductive Part where
  | position
  | decorator
  | decoratorName
  | type
  | typeKind
  | basicType
  | basicContent
  | mapContent
  | field
  | value
  | valueKind
  | callContent
  | expression
  | operand
  | operator
  | «let»
  | smallStatement
  | simpleStatement
  | forInit
  | statement
  | compound
  | «if»
  | «while»
  | «for»
  | branch
  | indexField
  | sortOrder
  | index
  | function
  | item
  | collection
  | declaration
  | program
  deriving DecidableEq, Repr

namespace Part

/-- A part in the place of a shape. -/
def shape (part : Part) : Shape Part := .named part

/-- A field that must be there and is another part. -/
def slot (name : String) (part : Part) : Slot Part := .required name part.shape

/-- A field that must be there and is a list of other parts. -/
def slots (name : String) (part : Part) : Slot Part := .required name (.list part.shape)

/-- A variant whose content is another part. -/
def variant (name : String) (part : Part) : String × Option (Shape Part) := (name, some part.shape)

/-- A variant whose content is a list of other parts. -/
def variants (name : String) (part : Part) : String × Option (Shape Part) :=
  (name, some (.list part.shape))

/-- The form of each part. -/
def form : Part → Form Part
  | .position => .record [.required "line" .natural, .required "column" .natural]
  | .decorator =>
    .record [slot "span" .position, slot "name" .decoratorName,
      .required "arguments" (.list .text)]
  | .decoratorName => .choice (DecoratorName.all.map fun name => unitVariant name.word)
  | .type => .record [slot "span" .position, slot "kind" .typeKind]
  | .typeKind =>
    .choice [variant "basic" .basicContent, variant "map" .mapContent, variants "object" .field,
      ("foreign", some .text)]
  | .basicType => .choice (BasicType.all.map fun type => unitVariant type.word)
  | .basicContent => .record [slot "basic" .basicType, .required "array" .flag]
  | .mapContent => .record [slot "key" .basicType, slot "value" .type]
  | .field =>
    .record [slot "span" .position, slots "decorators" .decorator, .required "name" .text,
      .required "optional" .flag, slot "type" .type]
  | .value => .record [slot "span" .position, slot "kind" .valueKind]
  | .valueKind =>
    .choice [("number", some .integer), ("string", some .text), ("boolean", some .flag),
      variant "call" .callContent, ("ident", some .text), variant "sub" .expression]
  | .callContent => .record [.required "callee" .text, slots "arguments" .expression]
  | .expression =>
    .record [slot "span" .position, slot "left" .value,
      ⟨"binary", Part.operand.shape, .nullable⟩]
  | .operand => .tuple [Part.operator.shape, Part.value.shape]
  | .operator => .choice (Operator.all.map fun operator => unitVariant operator.name)
  | .let =>
    .record [slot "span" .position, .required "ident" .text, slot "expression" .expression]
  | .smallStatement =>
    .choice [unitVariant "break", variant "return" .expression, variant "throw" .expression,
      variant "let" .let, variant "expression" .expression]
  | .simpleStatement => .record [slot "span" .position, slot "small" .smallStatement]
  | .forInit => .choice [variant "let" .let, variant "expression" .expression]
  | .statement => .choice [variant "compound" .compound, variant "simple" .simpleStatement]
  | .compound => .choice [variant "if" .if, variant "while" .while, variant "for" .for]
  | .if =>
    .record [slot "span" .position, slot "condition" .expression, slot "thenBranch" .branch,
      slot "elseBranch" .branch]
  | .while =>
    .record [slot "span" .position, slot "condition" .expression, slots "body" .statement]
  | .for =>
    .record [slot "span" .position, slot "init" .forInit, slot "condition" .expression,
      slot "post" .expression, slots "body" .statement]
  | .branch =>
    .choice [variants "block" .statement, variant "simple" .simpleStatement, unitVariant "absent"]
  | .indexField =>
    .record [slot "span" .position, .required "name" .text, slot "order" .sortOrder]
  | .sortOrder => .choice (SortOrder.all.map fun order => unitVariant order.word)
  | .index =>
    .record [slot "span" .position, .required "unique" .flag, slots "fields" .indexField]
  | .function =>
    .record [slot "span" .position, slots "decorators" .decorator, .required "name" .text,
      slots "parameters" .field, ⟨"returnType", Part.type.shape, .nullable⟩,
      slots "statements" .statement]
  | .item => .choice [variant "field" .field, variant "function" .function, variant "index" .index]
  | .collection =>
    .record [slot "span" .position, slots "decorators" .decorator, .required "name" .text,
      slots "items" .item]
  | .declaration => .choice [variant "collection" .collection, variant "function" .function]
  | .program => .record [slots "nodes" .declaration]

end Part

end CollectionSchema
