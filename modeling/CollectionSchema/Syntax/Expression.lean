import CollectionSchema.Syntax.Operator
import CollectionSchema.Text.Position

/-!
# Expressions

An expression is a value, or two values with an operator between them.  There is
no precedence: a longer expression needs parentheses, and these make a value out
of an expression.
-/

set_option autoImplicit false

namespace CollectionSchema

mutual

/-- One operand of an expression. -/
inductive Value where
  /-- An integer in 64 bits. -/
  | number (position : Position) (value : Int64)
  /-- A string with its quotes. -/
  | string (position : Position) (written : String)
  | boolean (position : Position) (truth : Bool)
  /-- A call of a function by its name. -/
  | call (position : Position) (callee : String) (arguments : List Expression)
  /-- A name, which may be a path with dots. -/
  | identifier (position : Position) (name : String)
  /-- An expression in parentheses. -/
  | enclosed (position : Position) (inner : Expression)

/-- A value, or two of them with an operator between. -/
inductive Expression where
  | single (position : Position) (left : Value)
  | binary (position : Position) (left : Value) (operator : Operator) (right : Value)

end

namespace Value

/-- The place of the first token of a value. -/
def position : Value → Position
  | .number position _ => position
  | .string position _ => position
  | .boolean position _ => position
  | .call position _ _ => position
  | .identifier position _ => position
  | .enclosed position _ => position

/-- The name that a value is, when it is a plain name. -/
def identifier? : Value → Option String
  | .identifier _ name => some name
  | _ => none

end Value

namespace Expression

/-- The expression that a value is on its own; it stands where the value stands. -/
def ofValue (left : Value) : Expression := .single left.position left

/-- Two values with an operator between them; the expression stands where the first value stands. -/
def ofOperator (left : Value) (operator : Operator) (right : Value) : Expression :=
  .binary left.position left operator right

/-- The place of an expression. -/
def position : Expression → Position
  | .single position _ => position
  | .binary position _ _ _ => position

/-- The first operand. -/
def left : Expression → Value
  | .single _ left => left
  | .binary _ left _ _ => left

/-- The operator, when there is one. -/
def operator? : Expression → Option Operator
  | .single _ _ => none
  | .binary _ _ operator _ => some operator

/-- The second operand, when there is one. -/
def right? : Expression → Option Value
  | .single _ _ => none
  | .binary _ _ _ right => some right

end Expression

end CollectionSchema
