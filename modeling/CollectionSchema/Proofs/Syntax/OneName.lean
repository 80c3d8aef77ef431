import CollectionSchema.Syntax.Program

/-!
# Programs with one name left open

A program with a hole for a name is a map from names to programs in which exactly one
part depends on the name, and this part is a name of the program; all that surrounds it
is fixed.  The holes are where a text declares a name or passes one to a decorator: names
of collections, fields, parameters, members, functions, fields of indexes and bindings,
and arguments of decorators.  Nothing in an expression is such a place.
-/

set_option autoImplicit false

namespace CollectionSchema

/-! ## Types and fields -/

/-- A decorator whose argument is left open. -/
inductive Decorator.OneName : (String → Decorator) → Prop
  | argument {position : Position} {name : DecoratorName} :
      OneName fun hole => ⟨position, name, [hole]⟩

mutual

/-- A type in which one name is left open: it is somewhere in a member or in the value of a map. -/
inductive SchemaType.OneName : (String → SchemaType) → Prop
  | value {position : Position} {key : BasicType} {value : String → SchemaType}
      (inner : SchemaType.OneName value) :
      SchemaType.OneName fun hole => .map position key (value hole)
  | member {position : Position} {front back : List Field} {field : String → Field}
      (inner : Field.OneName field) :
      SchemaType.OneName fun hole => .object position (front ++ field hole :: back)

/-- A field in which one name is left open. -/
inductive Field.OneName : (String → Field) → Prop
  | name {position : Position} {decorators : List Decorator} {optional : Bool} {type : SchemaType} :
      Field.OneName fun hole => ⟨position, decorators, hole, optional, type⟩
  | decorator {position : Position} {front back : List Decorator} {name : String} {optional : Bool}
      {type : SchemaType} {decorator : String → Decorator} (inner : Decorator.OneName decorator) :
      Field.OneName fun hole => ⟨position, front ++ decorator hole :: back, name, optional, type⟩
  | type {position : Position} {decorators : List Decorator} {name : String} {optional : Bool}
      {type : String → SchemaType} (inner : SchemaType.OneName type) :
      Field.OneName fun hole => ⟨position, decorators, name, optional, type hole⟩

end

/-! ## Statements -/

/-- A binding whose name is left open. -/
inductive Let.OneName : (String → Let) → Prop
  | name {position : Position} {value : Expression} : OneName fun hole => ⟨position, hole, value⟩

/-- A small statement in which one name is left open: it is a binding. -/
inductive SmallStatement.OneName : (String → SmallStatement) → Prop
  | binding {binding : String → Let} (inner : Let.OneName binding) :
      OneName fun hole => .let (binding hole)

/-- A simple statement in which one name is left open. -/
inductive SimpleStatement.OneName : (String → SimpleStatement) → Prop
  | small {position : Position} {small : String → SmallStatement}
      (inner : SmallStatement.OneName small) : OneName fun hole => ⟨position, small hole⟩

/-- A first clause of a counting loop in which one name is left open: it is a binding. -/
inductive ForInit.OneName : (String → ForInit) → Prop
  | binding {binding : String → Let} (inner : Let.OneName binding) :
      OneName fun hole => .let (binding hole)

mutual

/-- A statement in which one name is left open. -/
inductive Statement.OneName : (String → Statement) → Prop
  | thenBranch {position : Position} {condition : Expression} {thenBranch : String → Branch}
      {elseBranch : Branch} (inner : Branch.OneName thenBranch) :
      Statement.OneName fun hole => .if position condition (thenBranch hole) elseBranch
  | elseBranch {position : Position} {condition : Expression} {thenBranch : Branch}
      {elseBranch : String → Branch} (inner : Branch.OneName elseBranch) :
      Statement.OneName fun hole => .if position condition thenBranch (elseBranch hole)
  | whileBody {position : Position} {condition : Expression} {front back : List Statement}
      {statement : String → Statement} (inner : Statement.OneName statement) :
      Statement.OneName fun hole => .while position condition (front ++ statement hole :: back)
  | forInit {position : Position} {init : String → ForInit} {condition post : Expression}
      {body : List Statement} (inner : ForInit.OneName init) :
      Statement.OneName fun hole => .for position (init hole) condition post body
  | forBody {position : Position} {init : ForInit} {condition post : Expression}
      {front back : List Statement} {statement : String → Statement}
      (inner : Statement.OneName statement) :
      Statement.OneName fun hole =>
        .for position init condition post (front ++ statement hole :: back)
  | simple {statement : String → SimpleStatement} (inner : SimpleStatement.OneName statement) :
      Statement.OneName fun hole => .simple (statement hole)

/-- An arm of a conditional in which one name is left open. -/
inductive Branch.OneName : (String → Branch) → Prop
  | block {front back : List Statement} {statement : String → Statement}
      (inner : Statement.OneName statement) :
      Branch.OneName fun hole => .block (front ++ statement hole :: back)
  | simple {statement : String → SimpleStatement} (inner : SimpleStatement.OneName statement) :
      Branch.OneName fun hole => .simple (statement hole)

end

/-! ## Declarations -/

/-- A field of an index whose name is left open. -/
inductive IndexField.OneName : (String → IndexField) → Prop
  | name {position : Position} {order : SortOrder} : OneName fun hole => ⟨position, hole, order⟩

/-- An index in which one name is left open. -/
inductive Index.OneName : (String → Index) → Prop
  | field {position : Position} {unique : Bool} {front back : List IndexField}
      {field : String → IndexField} (inner : IndexField.OneName field) :
      OneName fun hole => ⟨position, unique, front ++ field hole :: back⟩

/-- A function in which one name is left open. -/
inductive Function.OneName : (String → Function) → Prop
  | name {position : Position} {decorators : List Decorator} {parameters : List Field}
      {result : Option SchemaType} {statements : List Statement} :
      OneName fun hole => ⟨position, decorators, hole, parameters, result, statements⟩
  | decorator {position : Position} {front back : List Decorator} {name : String}
      {parameters : List Field} {result : Option SchemaType} {statements : List Statement}
      {decorator : String → Decorator} (inner : Decorator.OneName decorator) :
      OneName fun hole =>
        ⟨position, front ++ decorator hole :: back, name, parameters, result, statements⟩
  | parameter {position : Position} {decorators : List Decorator} {name : String}
      {front back : List Field} {result : Option SchemaType} {statements : List Statement}
      {parameter : String → Field} (inner : Field.OneName parameter) :
      OneName fun hole =>
        ⟨position, decorators, name, front ++ parameter hole :: back, result, statements⟩
  | result {position : Position} {decorators : List Decorator} {name : String}
      {parameters : List Field} {statements : List Statement} {result : String → SchemaType}
      (inner : SchemaType.OneName result) :
      OneName fun hole => ⟨position, decorators, name, parameters, some (result hole), statements⟩
  | statement {position : Position} {decorators : List Decorator} {name : String}
      {parameters : List Field} {result : Option SchemaType} {front back : List Statement}
      {statement : String → Statement} (inner : Statement.OneName statement) :
      OneName fun hole =>
        ⟨position, decorators, name, parameters, result, front ++ statement hole :: back⟩

/-- A part of a collection in which one name is left open. -/
inductive Item.OneName : (String → Item) → Prop
  | field {field : String → Field} (inner : Field.OneName field) :
      OneName fun hole => .field (field hole)
  | function {function : String → Function} (inner : Function.OneName function) :
      OneName fun hole => .function (function hole)
  | index {index : String → Index} (inner : Index.OneName index) :
      OneName fun hole => .index (index hole)

/-- A collection in which one name is left open. -/
inductive Collection.OneName : (String → Collection) → Prop
  | name {position : Position} {decorators : List Decorator} {items : List Item} :
      OneName fun hole => ⟨position, decorators, hole, items⟩
  | decorator {position : Position} {front back : List Decorator} {name : String}
      {items : List Item} {decorator : String → Decorator} (inner : Decorator.OneName decorator) :
      OneName fun hole => ⟨position, front ++ decorator hole :: back, name, items⟩
  | item {position : Position} {decorators : List Decorator} {name : String}
      {front back : List Item} {item : String → Item} (inner : Item.OneName item) :
      OneName fun hole => ⟨position, decorators, name, front ++ item hole :: back⟩

/-- A declaration in which one name is left open. -/
inductive Declaration.OneName : (String → Declaration) → Prop
  | collection {collection : String → Collection} (inner : Collection.OneName collection) :
      OneName fun hole => .collection (collection hole)
  | function {function : String → Function} (inner : Function.OneName function) :
      OneName fun hole => .function (function hole)

/-- A program in which one name is left open. -/
inductive Program.OneName : (String → Program) → Prop
  | declaration {front back : List Declaration} {declaration : String → Declaration}
      (inner : Declaration.OneName declaration) :
      OneName fun hole => ⟨front ++ declaration hole :: back⟩

end CollectionSchema
