import CollectionSchema.Grammar.Expression
import CollectionSchema.Syntax.Statement

/-!
# The grammar of statements

    Statement := If | While | For | Small ';'
    Small     := 'break' | 'return' Expression | 'throw' Expression | Let | Expression
    Let       := 'let' Ident '=' Expression
    If        := 'if' '(' Expression ')' Branch? ('else' Branch)?
    Branch    := '{' Statement* '}' | Small ';'
    While     := 'while' '(' Expression ')' '{' Statement* '}'
    For       := 'for' '(' (Let | Expression) ';' Expression ';' Expression ')' '{' Statement* '}'

Compound statements are tried first, and a word such as `if` that opens none is
then a plain name.  The first small statement that matches is final, even when no
semicolon follows it.
-/

set_option autoImplicit false

namespace CollectionSchema.Grammar

open Rule

/-- A name that receives the value of an expression. -/
def letBinding : Rule Let := do
  let position ← here
  word .letBinding "let"
  let name ← identifier .letBinding
  mark .letBinding '='
  let value ← expression
  return ⟨position, name, value⟩

/-- A statement without the semicolon that ends it. -/
def smallStatement : Rule SmallStatement :=
  oneOf [
    do
      word .statement "break"
      return .break,
    do
      word .statement "return"
      return .return (← expression),
    do
      word .statement "throw"
      return .throw (← expression),
    do return .let (← letBinding),
    do return .expression (← expression)]

/-- A small statement and its semicolon. -/
def simpleStatement : Rule SimpleStatement := do
  let position ← here
  let small ← smallStatement
  mark .statement ';'
  return ⟨position, small⟩

/-- A condition in parentheses. -/
def condition (rule : RuleName) : Rule Expression := do
  mark rule '('
  let condition ← expression
  mark rule ')'
  return condition

/-- An arm of a conditional. -/
def branch (statement : Rule Statement) : Rule Branch :=
  oneOf [
    do return .block (← braced .block statement),
    do return .simple (← simpleStatement)]

/-- A conditional; an arm that does not match is absent. -/
def conditional (statement : Rule Statement) : Rule Statement := do
  let position ← here
  word .conditional "if"
  let condition ← condition .conditional
  let thenBranch ← optional (branch statement)
  let elseBranch ← optional do
    word .conditional "else"
    branch statement
  return .if position condition (thenBranch.getD .absent) (elseBranch.getD .absent)

/-- A loop with a condition. -/
def whileLoop (statement : Rule Statement) : Rule Statement := do
  let position ← here
  word .whileLoop "while"
  let condition ← condition .whileLoop
  let body ← braced .whileLoop statement
  return .while position condition body

/-- What a counting loop does first. -/
def forInit : Rule ForInit :=
  oneOf [
    do return .let (← letBinding),
    do return .expression (← expression)]

/-- A counting loop; all three clauses of its head are required. -/
def forLoop (statement : Rule Statement) : Rule Statement := do
  let position ← here
  word .forLoop "for"
  mark .forLoop '('
  let init ← forInit
  mark .forLoop ';'
  let condition ← expression
  mark .forLoop ';'
  let post ← expression
  mark .forLoop ')'
  let body ← braced .forLoop statement
  return .for position init condition post body

/-- A statement whose parts are statements by a given rule. -/
def statementBody (statement : Rule Statement) : Rule Statement :=
  oneOf [
    conditional statement,
    whileLoop statement,
    forLoop statement,
    do return .simple (← simpleStatement)]

/-- A statement. -/
def statement : Rule Statement := fix statementBody

end CollectionSchema.Grammar
