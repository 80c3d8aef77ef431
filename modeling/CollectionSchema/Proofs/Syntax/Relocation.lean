import CollectionSchema.Syntax.Program
import CollectionSchema.SyntaxError

/-!
# Moving the places in a program

Every part of a program keeps the place of its first token.  A map of places moves
all of them and changes nothing else.  The one map that is needed here moves every
place down by a number of lines.
-/

set_option autoImplicit false

namespace CollectionSchema

/-! ## Places further down -/

namespace Position

/-- A place some lines further down. -/
def down (lines : Nat) (place : Position) : Position := ⟨place.line + lines, place.column⟩

theorem advance_down (lines : Nat) (place : Position) (character : Char) :
    (place.down lines).advance character = (place.advance character).down lines := by
  rw [advance, advance]
  split
  · rw [down, down, Nat.add_right_comm]
  · rfl

theorem after_down (lines : Nat) (place : Position) (text : List Char) :
    (place.down lines).after text = (place.after text).down lines := by
  induction text generalizing place with
  | nil => rfl
  | cons first rest ih => rw [after_cons, after_cons, advance_down, ih]

/-- A text goes on as many lines further down as it has line feeds. -/
theorem line_after (place : Position) (text : List Char) :
    (place.after text).line = place.line + text.count '\n' := by
  induction text generalizing place with
  | nil => rfl
  | cons first rest ih =>
      rw [after_cons, ih, advance, List.count_cons]
      split
      case isTrue feed =>
        simp only [feed, beq_self_eq_true, if_true]
        omega
      case isFalse other => simp [other]

/-- The place behind a text and a line feed is the first place of a line. -/
theorem after_start_feed (text : List Char) :
    (start.after text).advance '\n' = start.down (text.count '\n' + 1) := by
  rw [advance, if_pos rfl, line_after]
  rfl

end Position

/-! ## Tokens and errors -/

variable (move : Position → Position)

/-- A token at another place. -/
def Token.relocate (token : Token) : Token := { token with position := move token.position }

@[simp] theorem Token.isEnd_relocate (token : Token) :
    (token.relocate move).isEnd = token.isEnd := rfl

/-- An error at another place. -/
def SyntaxError.relocate (error : SyntaxError) : SyntaxError :=
  { error with position := move error.position }

/-- What was made, or the error, at another place. -/
def relocateResult {α : Type} (action : α → α) (result : Except SyntaxError α) :
    Except SyntaxError α :=
  (result.map action).mapError (SyntaxError.relocate move)

/-! ## Types and fields -/

/-- A decorator at another place. -/
def Decorator.relocate (decorator : Decorator) : Decorator :=
  { decorator with position := move decorator.position }

mutual

/-- A type with all its parts at other places. -/
def SchemaType.relocate : SchemaType → SchemaType
  | .basic position type array => .basic (move position) type array
  | .map position key value => .map (move position) key value.relocate
  | .object position fields => .object (move position) (relocateFields fields)
  | .foreign position name => .foreign (move position) name

/-- A field with all its parts at other places. -/
def Field.relocate : Field → Field
  | ⟨position, decorators, name, optional, type⟩ =>
      ⟨move position, decorators.map (Decorator.relocate move), name, optional, type.relocate⟩

/-- Fields with all their parts at other places. -/
def relocateFields : List Field → List Field
  | [] => []
  | field :: rest => field.relocate :: relocateFields rest

end

@[simp] theorem relocateFields_eq_map (fields : List Field) :
    relocateFields move fields = fields.map (Field.relocate move) := by
  induction fields with
  | nil => rfl
  | cons field rest ih => rw [relocateFields, ih, List.map_cons]

/-! ## Expressions -/

mutual

/-- A value with all its parts at other places. -/
def Value.relocate : Value → Value
  | .number position value => .number (move position) value
  | .string position written => .string (move position) written
  | .boolean position truth => .boolean (move position) truth
  | .call position callee arguments => .call (move position) callee (relocateExpressions arguments)
  | .identifier position name => .identifier (move position) name
  | .enclosed position inner => .enclosed (move position) inner.relocate

/-- An expression with all its parts at other places. -/
def Expression.relocate : Expression → Expression
  | .single position left => .single (move position) left.relocate
  | .binary position left operator right =>
      .binary (move position) left.relocate operator right.relocate

/-- Expressions with all their parts at other places. -/
def relocateExpressions : List Expression → List Expression
  | [] => []
  | expression :: rest => expression.relocate :: relocateExpressions rest

end

@[simp] theorem relocateExpressions_eq_map (expressions : List Expression) :
    relocateExpressions move expressions = expressions.map (Expression.relocate move) := by
  induction expressions with
  | nil => rfl
  | cons expression rest ih => rw [relocateExpressions, ih, List.map_cons]

@[simp] theorem Value.position_relocate (value : Value) :
    (value.relocate move).position = move value.position := by
  cases value <;> simp only [relocate, position]

/-! ## Statements -/

/-- A binding with all its parts at other places. -/
def Let.relocate (binding : Let) : Let :=
  ⟨move binding.position, binding.name, binding.value.relocate move⟩

/-- A small statement with all its parts at other places. -/
def SmallStatement.relocate : SmallStatement → SmallStatement
  | .break => .break
  | .return value => .return (value.relocate move)
  | .throw value => .throw (value.relocate move)
  | .let binding => .let (binding.relocate move)
  | .expression value => .expression (value.relocate move)

/-- A simple statement with all its parts at other places. -/
def SimpleStatement.relocate (statement : SimpleStatement) : SimpleStatement :=
  ⟨move statement.position, statement.small.relocate move⟩

/-- The start of a counting loop with all its parts at other places. -/
def ForInit.relocate : ForInit → ForInit
  | .let binding => .let (binding.relocate move)
  | .expression value => .expression (value.relocate move)

mutual

/-- A statement with all its parts at other places. -/
def Statement.relocate : Statement → Statement
  | .if position condition thenBranch elseBranch =>
      .if (move position) (condition.relocate move) thenBranch.relocate elseBranch.relocate
  | .while position condition body =>
      .while (move position) (condition.relocate move) (relocateStatements body)
  | .for position init condition post body =>
      .for (move position) (init.relocate move) (condition.relocate move) (post.relocate move)
        (relocateStatements body)
  | .simple statement => .simple (statement.relocate move)

/-- An arm of a conditional with all its parts at other places. -/
def Branch.relocate : Branch → Branch
  | .block body => .block (relocateStatements body)
  | .simple statement => .simple (statement.relocate move)
  | .absent => .absent

/-- Statements with all their parts at other places. -/
def relocateStatements : List Statement → List Statement
  | [] => []
  | statement :: rest => statement.relocate :: relocateStatements rest

end

@[simp] theorem relocateStatements_eq_map (statements : List Statement) :
    relocateStatements move statements = statements.map (Statement.relocate move) := by
  induction statements with
  | nil => rfl
  | cons statement rest ih => rw [relocateStatements, ih, List.map_cons]

/-! ## Declarations and programs -/

/-- A function with all its parts at other places. -/
def Function.relocate (function : Function) : Function where
  position := move function.position
  decorators := function.decorators.map (Decorator.relocate move)
  name := function.name
  parameters := function.parameters.map (Field.relocate move)
  returnType := function.returnType.map (SchemaType.relocate move)
  statements := function.statements.map (Statement.relocate move)

/-- A field of an index at another place. -/
def IndexField.relocate (field : IndexField) : IndexField :=
  { field with position := move field.position }

/-- An index with all its parts at other places. -/
def Index.relocate (index : Index) : Index :=
  ⟨move index.position, index.unique, index.fields.map (IndexField.relocate move)⟩

/-- An item with all its parts at other places. -/
def Item.relocate : Item → Item
  | .field part => .field (part.relocate move)
  | .function part => .function (part.relocate move)
  | .index part => .index (part.relocate move)

/-- A collection with all its parts at other places. -/
def Collection.relocate (collection : Collection) : Collection :=
  ⟨move collection.position, collection.decorators.map (Decorator.relocate move), collection.name,
    collection.items.map (Item.relocate move)⟩

/-- A declaration with all its parts at other places. -/
def Declaration.relocate : Declaration → Declaration
  | .collection declared => .collection (declared.relocate move)
  | .function declared => .function (declared.relocate move)

/-- A program with all its parts at other places. -/
def Program.relocate (program : Program) : Program :=
  ⟨program.declarations.map (Declaration.relocate move)⟩

end CollectionSchema
