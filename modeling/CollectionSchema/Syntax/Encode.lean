import CollectionSchema.Json.Value
import CollectionSchema.Syntax.Program

/-!
# Programs as JSON

Every part of a program has a JSON form.  A part with several components is an
object whose members stand in a fixed order, and one of several alternatives is
an object with a single member that names the alternative, or just the name when
it has no content.
-/

set_option autoImplicit false

namespace CollectionSchema

/-- A place as an object. -/
def Position.toJson (position : Position) : Json :=
  .object [("line", .integer position.line), ("column", .integer position.column)]

/-! ## Types and fields -/

/-- A decorator as an object. -/
def Decorator.toJson (decorator : Decorator) : Json :=
  .object [("span", decorator.position.toJson), ("name", .string decorator.name.word),
    ("arguments", Json.ofList .string decorator.arguments)]

mutual

/-- A type as an object with its place and its kind. -/
def SchemaType.toJson : SchemaType → Json
  | .basic position type array =>
    .object [("span", position.toJson), ("kind", .single "basic"
      (.object [("basic", .string type.word), ("array", .bool array)]))]
  | .map position key value =>
    .object [("span", position.toJson), ("kind", .single "map"
      (.object [("key", .string key.word), ("value", value.toJson)]))]
  | .object position fields =>
    .object [("span", position.toJson), ("kind", .single "object" (.array (fieldsToJson fields)))]
  | .foreign position name =>
    .object [("span", position.toJson), ("kind", .single "foreign" (.string name))]

/-- A field as an object. -/
def Field.toJson : Field → Json
  | ⟨position, decorators, name, optional, type⟩ =>
    .object [("span", position.toJson), ("decorators", Json.ofList Decorator.toJson decorators),
      ("name", .string name), ("optional", .bool optional), ("type", type.toJson)]

/-- The fields of an object type, in order. -/
def fieldsToJson : List Field → List Json
  | [] => []
  | field :: rest => field.toJson :: fieldsToJson rest

end

/-! ## Expressions -/

mutual

/-- A value as an object with its place and its kind. -/
def Value.toJson : Value → Json
  | .number position value =>
    .object [("span", position.toJson), ("kind", .single "number" (.integer value.toInt))]
  | .string position written =>
    .object [("span", position.toJson), ("kind", .single "string" (.string written))]
  | .boolean position truth =>
    .object [("span", position.toJson), ("kind", .single "boolean" (.bool truth))]
  | .call position callee arguments =>
    .object [("span", position.toJson), ("kind", .single "call"
      (.object [("callee", .string callee), ("arguments", .array (argumentsToJson arguments))]))]
  | .identifier position name =>
    .object [("span", position.toJson), ("kind", .single "ident" (.string name))]
  | .enclosed position inner =>
    .object [("span", position.toJson), ("kind", .single "sub" inner.toJson)]

/-- An expression as an object; the operator and the second value are a pair, or null. -/
def Expression.toJson : Expression → Json
  | .single position left =>
    .object [("span", position.toJson), ("left", left.toJson), ("binary", .null)]
  | .binary position left operator right =>
    .object [("span", position.toJson), ("left", left.toJson),
      ("binary", .array [.string operator.name, right.toJson])]

/-- The arguments of a call, in order. -/
def argumentsToJson : List Expression → List Json
  | [] => []
  | argument :: rest => argument.toJson :: argumentsToJson rest

end

/-! ## Statements -/

/-- A binding as an object. -/
def Let.toJson (binding : Let) : Json :=
  .object [("span", binding.position.toJson), ("ident", .string binding.name),
    ("expression", binding.value.toJson)]

/-- What a simple statement does. -/
def SmallStatement.toJson : SmallStatement → Json
  | .break => .string "break"
  | .return value => .single "return" value.toJson
  | .throw value => .single "throw" value.toJson
  | .let binding => .single "let" binding.toJson
  | .expression value => .single "expression" value.toJson

/-- A simple statement as an object. -/
def SimpleStatement.toJson (statement : SimpleStatement) : Json :=
  .object [("span", statement.position.toJson), ("small", statement.small.toJson)]

/-- The first clause of a counting loop. -/
def ForInit.toJson : ForInit → Json
  | .let binding => .single "let" binding.toJson
  | .expression value => .single "expression" value.toJson

mutual

/-- A statement; the compound ones have a further level that names them. -/
def Statement.toJson : Statement → Json
  | .if position condition thenBranch elseBranch =>
    .single "compound" (.single "if" (.object [("span", position.toJson),
      ("condition", condition.toJson), ("thenBranch", thenBranch.toJson),
      ("elseBranch", elseBranch.toJson)]))
  | .while position condition body =>
    .single "compound" (.single "while" (.object [("span", position.toJson),
      ("condition", condition.toJson), ("body", .array (statementsToJson body))]))
  | .for position init condition post body =>
    .single "compound" (.single "for" (.object [("span", position.toJson), ("init", init.toJson),
      ("condition", condition.toJson), ("post", post.toJson),
      ("body", .array (statementsToJson body))]))
  | .simple statement => .single "simple" statement.toJson

/-- An arm of a conditional. -/
def Branch.toJson : Branch → Json
  | .block body => .single "block" (.array (statementsToJson body))
  | .simple statement => .single "simple" statement.toJson
  | .absent => .string "absent"

/-- The statements of a body, in order. -/
def statementsToJson : List Statement → List Json
  | [] => []
  | statement :: rest => statement.toJson :: statementsToJson rest

end

/-! ## Declarations -/

/-- A field of an index as an object. -/
def IndexField.toJson (field : IndexField) : Json :=
  .object [("span", field.position.toJson), ("name", .string field.name),
    ("order", .string field.order.word)]

/-- An index as an object. -/
def Index.toJson (index : Index) : Json :=
  .object [("span", index.position.toJson), ("unique", .bool index.unique),
    ("fields", Json.ofList IndexField.toJson index.fields)]

/-- A function as an object. -/
def Function.toJson (function : Function) : Json :=
  .object [("span", function.position.toJson),
    ("decorators", Json.ofList Decorator.toJson function.decorators),
    ("name", .string function.name), ("parameters", Json.ofList Field.toJson function.parameters),
    ("returnType", Json.ofOption SchemaType.toJson function.returnType),
    ("statements", Json.ofList Statement.toJson function.statements)]

/-- A part of a collection. -/
def Item.toJson : Item → Json
  | .field declared => .single "field" declared.toJson
  | .function declared => .single "function" declared.toJson
  | .index declared => .single "index" declared.toJson

/-- A collection as an object. -/
def Collection.toJson (collection : Collection) : Json :=
  .object [("span", collection.position.toJson),
    ("decorators", Json.ofList Decorator.toJson collection.decorators),
    ("name", .string collection.name), ("items", Json.ofList Item.toJson collection.items)]

/-- A declaration. -/
def Declaration.toJson : Declaration → Json
  | .collection declared => .single "collection" declared.toJson
  | .function declared => .single "function" declared.toJson

/-- A program as an object. -/
def Program.toJson (program : Program) : Json :=
  .object [("nodes", Json.ofList Declaration.toJson program.declarations)]

end CollectionSchema
