import CollectionSchema.Grammar.Recognizer
import CollectionSchema.Syntax.Expression
import CollectionSchema.Text.Decimal

/-!
# The grammar of expressions

    Expression := Value (Operator Value)?
    Value      := Number | String | 'true' | 'false' | Call | Ident | '(' Expression ')'
    Call       := Ident '(' (Expression (',' Expression)*)? ')'

An expression ends after the second value, so a further operator is left to the
caller.  The two truth values are tried before names, and calls before plain
names.
-/

set_option autoImplicit false

namespace CollectionSchema.Grammar

open Rule

/-- A number token that writes an integer in 64 bits.  Any other number token is refused with a note
of its own. -/
def integer : Rule Int64 := fun tokens =>
  match tokens with
  | token :: _ =>
    if token.kind = .number then
      match Text.integer64? token.lexeme.toList with
      | some value => ⟨[], some (value, 1)⟩
      | none => ⟨[⟨0, true, .value, .integer⟩], none⟩
    else ⟨[⟨0, false, .value, .number⟩], none⟩
  | [] => ⟨[⟨0, false, .value, .number⟩], none⟩

/-- A string token with its quotes. -/
def string : Rule String :=
  accept .value [.string] fun token => if token.kind = .string then some token.lexeme else none

/-- One of the two truth values. -/
def boolean : Rule Bool :=
  accept .value [.word "true", .word "false"] fun token =>
    if token.isWord "true" then some true else if token.isWord "false" then some false else none

/-- A call of a function, when a rule for its arguments is given. -/
def call (expression : Rule Expression) (position : Position) : Rule Value := do
  let callee ← identifier .call
  mark .call '('
  let arguments ← separated .call expression
  mark .call ')'
  return .call position callee arguments

/-- An expression in parentheses. -/
def enclosed (expression : Rule Expression) (position : Position) : Rule Value := do
  mark .value '('
  let inner ← expression
  mark .value ')'
  return .enclosed position inner

/-- A value whose parts are expressions by a given rule. -/
def valueOf (expression : Rule Expression) : Rule Value := do
  let position ← here
  oneOf [
    do return .number position (← integer),
    do return .string position (← string),
    do return .boolean position (← boolean),
    call expression position,
    do return .identifier position (← identifier .value),
    enclosed expression position]

/-- An expression whose parts are expressions by a given rule. -/
def expressionBody (expression : Rule Expression) : Rule Expression := do
  let left ← valueOf expression
  let right ← optional do
    let operator ← Recognizer.operator.rule .expression
    let right ← valueOf expression
    return (operator, right)
  match right with
  | none => return Expression.ofValue left
  | some (operator, right) => return Expression.ofOperator left operator right

/-- An expression. -/
def expression : Rule Expression := fix expressionBody

end CollectionSchema.Grammar
