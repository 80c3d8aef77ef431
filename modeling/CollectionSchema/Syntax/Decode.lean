import CollectionSchema.Json.Conform
import CollectionSchema.Syntax.Encode
import CollectionSchema.Syntax.Shape

/-!
# Programs from JSON

Reading a part of a program from a text goes in two steps.  The text is checked
against the shape of the part, which gives a canonical document, and that document
is then taken apart.  Every canonical document of the right shape gives a part, and
writing the part gives the document again.
-/

set_option autoImplicit false

namespace CollectionSchema

/-- A place from its document. -/
def Position.ofJson? : Json → Option Position
  | .object [("line", .integer line), ("column", .integer column)] =>
    some ⟨line.toNat, column.toNat⟩
  | _ => none

/-! ## Types and fields -/

/-- A decorator from its document. -/
def Decorator.ofJson? : Json → Option Decorator
  | .object [("span", position), ("name", .string name), ("arguments", arguments)] => do
    return ⟨← Position.ofJson? position, ← DecoratorName.ofWord? name,
      ← Json.list? Json.text? arguments⟩
  | _ => none

mutual

/-- A type from its document. -/
def SchemaType.ofJson? : Json → Option SchemaType
  | .object [("span", position), ("kind", .object [("basic",
      .object [("basic", .string type), ("array", .bool array)])])] => do
    return .basic (← Position.ofJson? position) (← BasicType.ofWord? type) array
  | .object [("span", position), ("kind", .object [("map",
      .object [("key", .string key), ("value", value)])])] => do
    return .map (← Position.ofJson? position) (← BasicType.ofWord? key)
      (← SchemaType.ofJson? value)
  | .object [("span", position), ("kind", .object [("object", .array fields)])] => do
    return .object (← Position.ofJson? position) (← fieldsOfJson? fields)
  | .object [("span", position), ("kind", .object [("foreign", .string name)])] => do
    return .foreign (← Position.ofJson? position) name
  | _ => none

/-- A field from its document. -/
def Field.ofJson? : Json → Option Field
  | .object [("span", position), ("decorators", decorators), ("name", .string name),
      ("optional", .bool optional), ("type", type)] => do
    return ⟨← Position.ofJson? position, ← Json.list? Decorator.ofJson? decorators, name, optional,
      ← SchemaType.ofJson? type⟩
  | _ => none

/-- The fields of an object type from their documents. -/
def fieldsOfJson? : List Json → Option (List Field)
  | [] => some []
  | field :: rest => do return (← Field.ofJson? field) :: (← fieldsOfJson? rest)

end

/-! ## Expressions -/

/-- An integer in 64 bits from its document. -/
def Json.integer64? : Json → Option Int64
  | .integer value => if Text.fitsInteger64 value then some (Int64.ofInt value) else none
  | _ => none

mutual

/-- A value from its document. -/
def Value.ofJson? : Json → Option Value
  | .object [("span", position), ("kind", .object [("number", value)])] => do
    return .number (← Position.ofJson? position) (← value.integer64?)
  | .object [("span", position), ("kind", .object [("string", .string written)])] => do
    return .string (← Position.ofJson? position) written
  | .object [("span", position), ("kind", .object [("boolean", .bool truth)])] => do
    return .boolean (← Position.ofJson? position) truth
  | .object [("span", position), ("kind", .object [("call",
      .object [("callee", .string callee), ("arguments", .array arguments)])])] => do
    return .call (← Position.ofJson? position) callee (← argumentsOfJson? arguments)
  | .object [("span", position), ("kind", .object [("ident", .string name)])] => do
    return .identifier (← Position.ofJson? position) name
  | .object [("span", position), ("kind", .object [("sub", inner)])] => do
    return .enclosed (← Position.ofJson? position) (← Expression.ofJson? inner)
  | _ => none

/-- An expression from its document. -/
def Expression.ofJson? : Json → Option Expression
  | .object [("span", position), ("left", left), ("binary", .null)] => do
    return .single (← Position.ofJson? position) (← Value.ofJson? left)
  | .object [("span", position), ("left", left), ("binary", .array [.string operator, right])] => do
    return .binary (← Position.ofJson? position) (← Value.ofJson? left)
      (← Operator.ofName? operator) (← Value.ofJson? right)
  | _ => none

/-- The arguments of a call from their documents. -/
def argumentsOfJson? : List Json → Option (List Expression)
  | [] => some []
  | argument :: rest => do return (← Expression.ofJson? argument) :: (← argumentsOfJson? rest)

end

/-! ## Statements -/

/-- A binding from its document. -/
def Let.ofJson? : Json → Option Let
  | .object [("span", position), ("ident", .string name), ("expression", value)] => do
    return ⟨← Position.ofJson? position, name, ← Expression.ofJson? value⟩
  | _ => none

/-- What a simple statement does, from its document. -/
def SmallStatement.ofJson? : Json → Option SmallStatement
  | .string "break" => some .break
  | .object [("return", value)] => do return .return (← Expression.ofJson? value)
  | .object [("throw", value)] => do return .throw (← Expression.ofJson? value)
  | .object [("let", binding)] => do return .let (← Let.ofJson? binding)
  | .object [("expression", value)] => do return .expression (← Expression.ofJson? value)
  | _ => none

/-- A simple statement from its document. -/
def SimpleStatement.ofJson? : Json → Option SimpleStatement
  | .object [("span", position), ("small", small)] => do
    return ⟨← Position.ofJson? position, ← SmallStatement.ofJson? small⟩
  | _ => none

/-- The first clause of a counting loop from its document. -/
def ForInit.ofJson? : Json → Option ForInit
  | .object [("let", binding)] => do return .let (← Let.ofJson? binding)
  | .object [("expression", value)] => do return .expression (← Expression.ofJson? value)
  | _ => none

mutual

/-- A statement from its document. -/
def Statement.ofJson? : Json → Option Statement
  | .object [("compound", .object [("if", .object [("span", position), ("condition", condition),
      ("thenBranch", thenBranch), ("elseBranch", elseBranch)])])] => do
    return .if (← Position.ofJson? position) (← Expression.ofJson? condition)
      (← Branch.ofJson? thenBranch) (← Branch.ofJson? elseBranch)
  | .object [("compound", .object [("while", .object [("span", position),
      ("condition", condition), ("body", .array body)])])] => do
    return .while (← Position.ofJson? position) (← Expression.ofJson? condition)
      (← statementsOfJson? body)
  | .object [("compound", .object [("for", .object [("span", position), ("init", init),
      ("condition", condition), ("post", post), ("body", .array body)])])] => do
    return .for (← Position.ofJson? position) (← ForInit.ofJson? init)
      (← Expression.ofJson? condition) (← Expression.ofJson? post) (← statementsOfJson? body)
  | .object [("simple", statement)] => do return .simple (← SimpleStatement.ofJson? statement)
  | _ => none

/-- An arm of a conditional from its document. -/
def Branch.ofJson? : Json → Option Branch
  | .object [("block", .array body)] => do return .block (← statementsOfJson? body)
  | .object [("simple", statement)] => do return .simple (← SimpleStatement.ofJson? statement)
  | .string "absent" => some .absent
  | _ => none

/-- The statements of a body from their documents. -/
def statementsOfJson? : List Json → Option (List Statement)
  | [] => some []
  | statement :: rest => do return (← Statement.ofJson? statement) :: (← statementsOfJson? rest)

end

/-! ## Declarations -/

/-- A field of an index from its document. -/
def IndexField.ofJson? : Json → Option IndexField
  | .object [("span", position), ("name", .string name), ("order", .string order)] => do
    return ⟨← Position.ofJson? position, name, ← SortOrder.ofWord? order⟩
  | _ => none

/-- An index from its document. -/
def Index.ofJson? : Json → Option Index
  | .object [("span", position), ("unique", .bool unique), ("fields", fields)] => do
    return ⟨← Position.ofJson? position, unique, ← Json.list? IndexField.ofJson? fields⟩
  | _ => none

/-- A function from its document. -/
def Function.ofJson? : Json → Option Function
  | .object [("span", position), ("decorators", decorators), ("name", .string name),
      ("parameters", parameters), ("returnType", returnType), ("statements", statements)] => do
    return ⟨← Position.ofJson? position, ← Json.list? Decorator.ofJson? decorators, name,
      ← Json.list? Field.ofJson? parameters, ← Json.option? SchemaType.ofJson? returnType,
      ← Json.list? Statement.ofJson? statements⟩
  | _ => none

/-- A part of a collection from its document. -/
def Item.ofJson? : Json → Option Item
  | .object [("field", declared)] => do return .field (← Field.ofJson? declared)
  | .object [("function", declared)] => do return .function (← Function.ofJson? declared)
  | .object [("index", declared)] => do return .index (← Index.ofJson? declared)
  | _ => none

/-- A collection from its document. -/
def Collection.ofJson? : Json → Option Collection
  | .object [("span", position), ("decorators", decorators), ("name", .string name),
      ("items", items)] => do
    return ⟨← Position.ofJson? position, ← Json.list? Decorator.ofJson? decorators, name,
      ← Json.list? Item.ofJson? items⟩
  | _ => none

/-- A declaration from its document. -/
def Declaration.ofJson? : Json → Option Declaration
  | .object [("collection", declared)] => do return .collection (← Collection.ofJson? declared)
  | .object [("function", declared)] => do return .function (← Function.ofJson? declared)
  | _ => none

/-- A program from its document. -/
def Program.ofJson? : Json → Option Program
  | .object [("nodes", declarations)] => do
    return ⟨← Json.list? Declaration.ofJson? declarations⟩
  | _ => none

/-! ## From texts -/

/-- A part of a program from a text, by its shape. -/
def Part.decode {α : Type} (part : Part) (read : Json → Option α) (text : String) :
    Except Json.Failure α := do
  match read (← Json.decode Part.form part.shape text) with
  | some decoded => return decoded
  | none => Json.mismatch .wrongType

/-- A program from a text. -/
def Program.decode : String → Except Json.Failure Program := Part.program.decode Program.ofJson?

/-- An expression from a text. -/
def Expression.decode : String → Except Json.Failure Expression :=
  Part.expression.decode Expression.ofJson?

/-- A statement from a text. -/
def Statement.decode : String → Except Json.Failure Statement :=
  Part.statement.decode Statement.ofJson?

/-- A field from a text. -/
def Field.decode : String → Except Json.Failure Field := Part.field.decode Field.ofJson?

/-- An index from a text. -/
def Index.decode : String → Except Json.Failure Index := Part.index.decode Index.ofJson?

/-- A type from a text. -/
def SchemaType.decode : String → Except Json.Failure SchemaType :=
  Part.type.decode SchemaType.ofJson?

end CollectionSchema
