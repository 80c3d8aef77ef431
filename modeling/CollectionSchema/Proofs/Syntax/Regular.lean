import CollectionSchema.Proofs.Token.Lexeme
import CollectionSchema.Syntax.Program

/-!
# Regular programs

Not every value of the types for programs is written by a text.  In a regular program the
names are identifiers and the strings have their quotes.  And what it holds is not read
as something else: a reference to a collection is no basic type, a plain name is no truth
value, and an expression that stands as a statement is none of the statements that begin
with a word.
-/

set_option autoImplicit false

namespace CollectionSchema

/-- Whether a text is that of an identifier, which is not empty. -/
def IsName (text : String) : Prop := Lexeme .identifier text.toList

/-- Whether a text stands between two quotes of a kind, without such a quote inside. -/
def IsQuoted (text : String) : Prop := Lexeme .string text.toList

/-! ## Types and fields -/

/-- Whether a decorator has one argument at most, and that is a name. -/
def Decorator.Regular (decorator : Decorator) : Prop :=
  decorator.arguments.length ≤ 1 ∧ ∀ argument ∈ decorator.arguments, IsName argument

mutual

/-- Whether a type refers to collections by names that are no basic types. -/
def SchemaType.Regular : SchemaType → Prop
  | .basic _ _ _ => True
  | .map _ _ value => value.Regular
  | .object _ fields => FieldsRegular fields
  | .foreign _ name => IsName name ∧ BasicType.ofWord? name = none

/-- Whether a field has a name and a regular type. -/
def Field.Regular : Field → Prop
  | ⟨_, decorators, name, _, type⟩ =>
    (∀ decorator ∈ decorators, decorator.Regular) ∧ IsName name ∧ type.Regular

/-- Whether some fields are regular. -/
def FieldsRegular : List Field → Prop
  | [] => True
  | field :: rest => field.Regular ∧ FieldsRegular rest

end

theorem fieldsRegular_iff {fields : List Field} :
    FieldsRegular fields ↔ ∀ field ∈ fields, field.Regular := by
  induction fields with
  | nil => exact iff_of_true trivial nofun
  | cons field rest ih => rw [FieldsRegular, ih, List.forall_mem_cons]

/-! ## Expressions -/

/-- The word that a value begins with: the name that it is, or the name of the function that it
calls. -/
def Value.word? : Value → Option String
  | .call _ callee _ => some callee
  | .identifier _ name => some name
  | _ => none

/-- Whether a word is none of the two truth values. -/
def IsNoTruth (word : String) : Prop := word ≠ "true" ∧ word ≠ "false"

mutual

/-- Whether the names in a value are names and no truth values, and its strings have quotes. -/
def Value.Regular : Value → Prop
  | .number _ _ | .boolean _ _ => True
  | .string _ written => IsQuoted written
  | .call _ callee arguments => IsName callee ∧ IsNoTruth callee ∧ ArgumentsRegular arguments
  | .identifier _ name => IsName name ∧ IsNoTruth name
  | .enclosed _ inner => inner.Regular

/-- Whether an expression has the place of its first value, and its values are regular. -/
def Expression.Regular : Expression → Prop
  | .single position left => position = left.position ∧ left.Regular
  | .binary position left _ right => position = left.position ∧ left.Regular ∧ right.Regular

/-- Whether the arguments of a call are regular. -/
def ArgumentsRegular : List Expression → Prop
  | [] => True
  | argument :: rest => argument.Regular ∧ ArgumentsRegular rest

end

theorem argumentsRegular_iff {arguments : List Expression} :
    ArgumentsRegular arguments ↔ ∀ argument ∈ arguments, argument.Regular := by
  induction arguments with
  | nil => exact iff_of_true trivial nofun
  | cons argument rest ih => rw [ArgumentsRegular, ih, List.forall_mem_cons]

/-! ## Statements -/

/-- Whether a binding has a name and a regular value. -/
def Let.Regular (binding : Let) : Prop := IsName binding.name ∧ binding.value.Regular

/-- Whether an expression that stands as a statement is no other statement: it does not begin with
the word `break`, and its first value calls neither `return` nor `throw` with a single argument,
which would be an expression in parentheses behind the word. -/
def Expression.StandsAlone (expression : Expression) : Prop :=
  expression.left.word? ≠ some "break" ∧
    ∀ position callee arguments, expression.left = .call position callee arguments →
      callee = "return" ∨ callee = "throw" → arguments.length ≠ 1

/-- Whether a small statement is regular. -/
def SmallStatement.Regular : SmallStatement → Prop
  | .break => True
  | .return value | .throw value => value.Regular
  | .let binding => binding.Regular
  | .expression value => value.Regular ∧ value.StandsAlone

/-- Whether the first clause of a counting loop is regular. -/
def ForInit.Regular : ForInit → Prop
  | .let binding => binding.Regular
  | .expression value => value.Regular

mutual

/-- Whether a statement is regular, with all statements in it. -/
def Statement.Regular : Statement → Prop
  | .if _ condition thenBranch elseBranch =>
    condition.Regular ∧ thenBranch.Regular ∧ elseBranch.Regular
  | .while _ condition body => condition.Regular ∧ StatementsRegular body
  | .for _ init condition post body =>
    init.Regular ∧ condition.Regular ∧ post.Regular ∧ StatementsRegular body
  | .simple statement => statement.small.Regular

/-- Whether an arm of a conditional is regular. -/
def Branch.Regular : Branch → Prop
  | .block body => StatementsRegular body
  | .simple statement => statement.small.Regular
  | .absent => True

/-- Whether the statements of a body are regular. -/
def StatementsRegular : List Statement → Prop
  | [] => True
  | statement :: rest => statement.Regular ∧ StatementsRegular rest

end

theorem statementsRegular_iff {statements : List Statement} :
    StatementsRegular statements ↔ ∀ statement ∈ statements, statement.Regular := by
  induction statements with
  | nil => exact iff_of_true trivial nofun
  | cons statement rest ih => rw [StatementsRegular, ih, List.forall_mem_cons]

/-! ## Declarations -/

/-- Whether a function has a name, and its parts are regular. -/
def Function.Regular (function : Function) : Prop :=
  (∀ decorator ∈ function.decorators, decorator.Regular) ∧ IsName function.name ∧
    (∀ field ∈ function.parameters, field.Regular) ∧
      (∀ type ∈ function.returnType, type.Regular) ∧
        ∀ statement ∈ function.statements, statement.Regular

/-- Whether the fields of an index have names. -/
def Index.Regular (index : Index) : Prop := ∀ field ∈ index.fields, IsName field.name

/-- Whether a part of a collection is regular. -/
def Item.Regular : Item → Prop
  | .field declared => declared.Regular
  | .function declared => declared.Regular
  | .index declared => declared.Regular

/-- Whether a collection has a name, and its parts are regular. -/
def Collection.Regular (collection : Collection) : Prop :=
  (∀ decorator ∈ collection.decorators, decorator.Regular) ∧ IsName collection.name ∧
    ∀ item ∈ collection.items, item.Regular

/-- Whether a declaration is regular. -/
def Declaration.Regular : Declaration → Prop
  | .collection declared => declared.Regular
  | .function declared => declared.Regular

/-- Whether all declarations of a program are regular. -/
def Program.Regular (program : Program) : Prop :=
  ∀ declaration ∈ program.declarations, declaration.Regular

end CollectionSchema
