import CollectionSchema.Syntax.Program
import CollectionSchema.Text.Outline

/-!
# Programs as outlines

The outline of a program shows every part with its place.  One of several
alternatives is a group that names the alternative around its content.
-/

set_option autoImplicit false

namespace CollectionSchema

/-- A name as groups carry it: with its first letter in upper case. -/
def groupName (name : String) : Outline := .atom name.capitalize

/-- A place. -/
def Position.outline (position : Position) : Outline :=
  .record "Span" [("line", .atom (toString position.line)),
    ("column", .atom (toString position.column))]

/-! ## Types and fields -/

/-- A decorator. -/
def Decorator.outline (decorator : Decorator) : Outline :=
  .record "Decorator" [("span", decorator.position.outline),
    ("name", groupName decorator.name.word),
    ("arguments", .list (decorator.arguments.map Outline.text))]

/-- A type with its place and its kind. -/
def typeOutline (position : Position) (kind : Outline) : Outline :=
  .record "Type" [("span", position.outline), ("kind", kind)]

mutual

/-- A type. -/
def SchemaType.outline : SchemaType → Outline
  | .basic position type array =>
    typeOutline position (.record "Basic" [("basic", groupName type.word), ("array", .truth array)])
  | .map position key value =>
    typeOutline position (.record "Map" [("key", groupName key.word), ("value", value.outline)])
  | .object position fields =>
    typeOutline position (.tuple "Object" [.list (fieldOutlines fields)])
  | .foreign position name => typeOutline position (.tuple "Foreign" [.text name])

/-- A field. -/
def Field.outline : Field → Outline
  | ⟨position, decorators, name, optional, type⟩ =>
    .record "Field" [("span", position.outline),
      ("decorators", .list (decorators.map Decorator.outline)), ("name", .text name),
      ("optional", .truth optional), ("ty", type.outline)]

/-- The fields of an object type, in order. -/
def fieldOutlines : List Field → List Outline
  | [] => []
  | field :: rest => field.outline :: fieldOutlines rest

end

/-! ## Expressions -/

/-- A value with its place and its kind. -/
def valueOutline (position : Position) (kind : Outline) : Outline :=
  .record "Value" [("span", position.outline), ("kind", kind)]

mutual

/-- A value. -/
def Value.outline : Value → Outline
  | .number position value =>
    valueOutline position (.tuple "Number" [.atom (toString value.toInt)])
  | .string position written => valueOutline position (.tuple "String" [.text written])
  | .boolean position truth => valueOutline position (.tuple "Boolean" [.truth truth])
  | .call position callee arguments =>
    valueOutline position (.tuple "Call" [.record "Call" [("callee", .text callee),
      ("arguments", .list (argumentOutlines arguments))]])
  | .identifier position name => valueOutline position (.tuple "Ident" [.text name])
  | .enclosed position inner => valueOutline position (.tuple "Sub" [inner.outline])

/-- An expression. -/
def Expression.outline : Expression → Outline
  | .single position left =>
    .record "Expression" [("span", position.outline), ("left", left.outline),
      ("binary", .option none)]
  | .binary position left operator right =>
    .record "Expression" [("span", position.outline), ("left", left.outline),
      ("binary", .option (some (.tuple "" [groupName operator.name, right.outline])))]

/-- The arguments of a call, in order. -/
def argumentOutlines : List Expression → List Outline
  | [] => []
  | argument :: rest => argument.outline :: argumentOutlines rest

end

/-! ## Statements -/

/-- A binding. -/
def Let.outline (binding : Let) : Outline :=
  .record "Let" [("span", binding.position.outline), ("ident", .text binding.name),
    ("expression", binding.value.outline)]

/-- What a simple statement does. -/
def SmallStatement.outline : SmallStatement → Outline
  | .break => .atom "Break"
  | .return value => .tuple "Return" [value.outline]
  | .throw value => .tuple "Throw" [value.outline]
  | .let binding => .tuple "Let" [binding.outline]
  | .expression value => .tuple "Expression" [value.outline]

/-- A simple statement. -/
def SimpleStatement.outline (statement : SimpleStatement) : Outline :=
  .record "SimpleStatement" [("span", statement.position.outline),
    ("small", statement.small.outline)]

/-- The first clause of a counting loop. -/
def ForInit.outline : ForInit → Outline
  | .let binding => .tuple "Let" [binding.outline]
  | .expression value => .tuple "Expression" [value.outline]

mutual

/-- A statement; the compound ones have a further group around them. -/
def Statement.outline : Statement → Outline
  | .if position condition thenBranch elseBranch =>
    .tuple "Compound" [.tuple "If" [.record "If" [("span", position.outline),
      ("condition", condition.outline), ("then_branch", thenBranch.outline),
      ("else_branch", elseBranch.outline)]]]
  | .while position condition body =>
    .tuple "Compound" [.tuple "While" [.record "While" [("span", position.outline),
      ("condition", condition.outline), ("body", .list (statementOutlines body))]]]
  | .for position init condition post body =>
    .tuple "Compound" [.tuple "For" [.record "For" [("span", position.outline),
      ("init", init.outline), ("condition", condition.outline), ("post", post.outline),
      ("body", .list (statementOutlines body))]]]
  | .simple statement => .tuple "Simple" [statement.outline]

/-- An arm of a conditional. -/
def Branch.outline : Branch → Outline
  | .block body => .tuple "Block" [.list (statementOutlines body)]
  | .simple statement => .tuple "Simple" [statement.outline]
  | .absent => .atom "Absent"

/-- The statements of a body, in order. -/
def statementOutlines : List Statement → List Outline
  | [] => []
  | statement :: rest => statement.outline :: statementOutlines rest

end

/-! ## Declarations -/

/-- A field of an index. -/
def IndexField.outline (field : IndexField) : Outline :=
  .record "IndexField" [("span", field.position.outline), ("name", .text field.name),
    ("order", groupName field.order.word)]

/-- An index. -/
def Index.outline (index : Index) : Outline :=
  .record "Index" [("span", index.position.outline), ("unique", .truth index.unique),
    ("fields", .list (index.fields.map IndexField.outline))]

/-- A function. -/
def Function.outline (function : Function) : Outline :=
  .record "Function" [("span", function.position.outline),
    ("decorators", .list (function.decorators.map Decorator.outline)),
    ("name", .text function.name),
    ("parameters", .list (function.parameters.map Field.outline)),
    ("return_type", .option (function.returnType.map SchemaType.outline)),
    ("statements", .list (function.statements.map Statement.outline))]

/-- A part of a collection. -/
def Item.outline : Item → Outline
  | .field declared => .tuple "Field" [declared.outline]
  | .function declared => .tuple "Function" [declared.outline]
  | .index declared => .tuple "Index" [declared.outline]

/-- A collection. -/
def Collection.outline (collection : Collection) : Outline :=
  .record "Collection" [("span", collection.position.outline),
    ("decorators", .list (collection.decorators.map Decorator.outline)),
    ("name", .text collection.name), ("items", .list (collection.items.map Item.outline))]

/-- A declaration. -/
def Declaration.outline : Declaration → Outline
  | .collection declared => .tuple "Collection" [declared.outline]
  | .function declared => .tuple "Function" [declared.outline]

/-- A program. -/
def Program.outline (program : Program) : Outline :=
  .record "Program" [("nodes", .list (program.declarations.map Declaration.outline))]

end CollectionSchema
