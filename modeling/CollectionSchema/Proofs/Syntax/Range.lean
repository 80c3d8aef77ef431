import CollectionSchema.Syntax.Program
import Mathlib.Algebra.Group.Nat.Defs

/-!
# Programs whose places are in range

Lines and columns are counted in 64 bits, so no place of a program that is held in
memory is beyond them.  A part is in range when all of its places are; nothing else
in a program has a bound of its own.
-/

set_option autoImplicit false

namespace CollectionSchema

/-- Whether the line and the column of a place fit into 64 bits. -/
def Position.InRange (place : Position) : Prop := place.line < 2 ^ 64 ∧ place.column < 2 ^ 64

/-! ## Types and fields -/

/-- Whether the place of a decorator is in range. -/
def Decorator.InRange (decorator : Decorator) : Prop := decorator.position.InRange

mutual

/-- Whether all places of a type are in range. -/
def SchemaType.InRange : SchemaType → Prop
  | .basic position _ _ => position.InRange
  | .map position _ value => position.InRange ∧ value.InRange
  | .object position fields => position.InRange ∧ FieldsInRange fields
  | .foreign position _ => position.InRange

/-- Whether all places of a field are in range. -/
def Field.InRange : Field → Prop
  | ⟨position, decorators, _, _, type⟩ =>
    position.InRange ∧ (∀ decorator ∈ decorators, decorator.InRange) ∧ type.InRange

/-- Whether all places of some fields are in range. -/
def FieldsInRange : List Field → Prop
  | [] => True
  | field :: rest => field.InRange ∧ FieldsInRange rest

end

theorem fieldsInRange_iff {fields : List Field} :
    FieldsInRange fields ↔ ∀ field ∈ fields, field.InRange := by
  induction fields with
  | nil => exact iff_of_true trivial fun _ none => by cases none
  | cons field rest ih => rw [FieldsInRange, ih, List.forall_mem_cons]

/-! ## Expressions -/

mutual

/-- Whether all places of a value are in range. -/
def Value.InRange : Value → Prop
  | .number position _ | .string position _ | .boolean position _ | .identifier position _ =>
    position.InRange
  | .call position _ arguments => position.InRange ∧ ArgumentsInRange arguments
  | .enclosed position inner => position.InRange ∧ inner.InRange

/-- Whether all places of an expression are in range. -/
def Expression.InRange : Expression → Prop
  | .single position left => position.InRange ∧ left.InRange
  | .binary position left _ right => position.InRange ∧ left.InRange ∧ right.InRange

/-- Whether all places of the arguments of a call are in range. -/
def ArgumentsInRange : List Expression → Prop
  | [] => True
  | argument :: rest => argument.InRange ∧ ArgumentsInRange rest

end

theorem argumentsInRange_iff {arguments : List Expression} :
    ArgumentsInRange arguments ↔ ∀ argument ∈ arguments, argument.InRange := by
  induction arguments with
  | nil => exact iff_of_true trivial fun _ none => by cases none
  | cons argument rest ih => rw [ArgumentsInRange, ih, List.forall_mem_cons]

/-! ## Statements -/

/-- Whether all places of a binding are in range. -/
def Let.InRange (binding : Let) : Prop := binding.position.InRange ∧ binding.value.InRange

/-- Whether all places of a small statement are in range. -/
def SmallStatement.InRange : SmallStatement → Prop
  | .break => True
  | .return value | .throw value | .expression value => value.InRange
  | .let binding => binding.InRange

/-- Whether all places of a simple statement are in range. -/
def SimpleStatement.InRange (statement : SimpleStatement) : Prop :=
  statement.position.InRange ∧ statement.small.InRange

/-- Whether all places of the first clause of a counting loop are in range. -/
def ForInit.InRange : ForInit → Prop
  | .let binding => binding.InRange
  | .expression value => value.InRange

mutual

/-- Whether all places of a statement are in range. -/
def Statement.InRange : Statement → Prop
  | .if position condition thenBranch elseBranch =>
    position.InRange ∧ condition.InRange ∧ thenBranch.InRange ∧ elseBranch.InRange
  | .while position condition body =>
    position.InRange ∧ condition.InRange ∧ StatementsInRange body
  | .for position init condition post body =>
    position.InRange ∧ init.InRange ∧ condition.InRange ∧ post.InRange ∧ StatementsInRange body
  | .simple statement => statement.InRange

/-- Whether all places of an arm of a conditional are in range. -/
def Branch.InRange : Branch → Prop
  | .block body => StatementsInRange body
  | .simple statement => statement.InRange
  | .absent => True

/-- Whether all places of the statements of a body are in range. -/
def StatementsInRange : List Statement → Prop
  | [] => True
  | statement :: rest => statement.InRange ∧ StatementsInRange rest

end

theorem statementsInRange_iff {statements : List Statement} :
    StatementsInRange statements ↔ ∀ statement ∈ statements, statement.InRange := by
  induction statements with
  | nil => exact iff_of_true trivial fun _ none => by cases none
  | cons statement rest ih => rw [StatementsInRange, ih, List.forall_mem_cons]

/-! ## Declarations -/

/-- Whether all places of a function are in range. -/
def Function.InRange (function : Function) : Prop :=
  function.position.InRange ∧ (∀ decorator ∈ function.decorators, decorator.InRange) ∧
    (∀ field ∈ function.parameters, field.InRange) ∧
      (∀ type ∈ function.returnType, type.InRange) ∧
        ∀ statement ∈ function.statements, statement.InRange

/-- Whether the place of a field of an index is in range. -/
def IndexField.InRange (field : IndexField) : Prop := field.position.InRange

/-- Whether all places of an index are in range. -/
def Index.InRange (index : Index) : Prop :=
  index.position.InRange ∧ ∀ field ∈ index.fields, field.InRange

/-- Whether all places of a part of a collection are in range. -/
def Item.InRange : Item → Prop
  | .field declared => declared.InRange
  | .function declared => declared.InRange
  | .index declared => declared.InRange

/-- Whether all places of a collection are in range. -/
def Collection.InRange (collection : Collection) : Prop :=
  collection.position.InRange ∧ (∀ decorator ∈ collection.decorators, decorator.InRange) ∧
    ∀ item ∈ collection.items, item.InRange

/-- Whether all places of a declaration are in range. -/
def Declaration.InRange : Declaration → Prop
  | .collection declared => declared.InRange
  | .function declared => declared.InRange

/-- Whether all places of a program are in range. -/
def Program.InRange (program : Program) : Prop :=
  ∀ declaration ∈ program.declarations, declaration.InRange

end CollectionSchema
