/-!
# Operators

The operators of the schema language, with their spellings and the names that
the JSON form uses for them.  A spelling has one or two characters.
-/

set_option autoImplicit false

namespace CollectionSchema

/-- An operator between two values. -/
inductive Operator where
  | not
  | bitNot
  | exponent
  | multiply
  | divide
  | modulo
  | add
  | subtract
  | shiftLeft
  | shiftRight
  | bitAnd
  | bitXor
  | bitOr
  | lessThan
  | greaterThan
  | lessThanOrEqual
  | greaterThanOrEqual
  | equal
  | notEqual
  | and
  | or
  | assignSub
  | assignAdd
  | assign
  deriving DecidableEq, Repr

namespace Operator

/-- Every operator, in order. -/
def all : List Operator :=
  [.not, .bitNot, .exponent, .multiply, .divide, .modulo, .add, .subtract, .shiftLeft, .shiftRight,
    .bitAnd, .bitXor, .bitOr, .lessThan, .greaterThan, .lessThanOrEqual, .greaterThanOrEqual,
    .equal, .notEqual, .and, .or, .assignSub, .assignAdd, .assign]

/-- How an operator is written in a schema text. -/
def spelling : Operator → String
  | .not => "!"
  | .bitNot => "~"
  | .exponent => "**"
  | .multiply => "*"
  | .divide => "/"
  | .modulo => "%"
  | .add => "+"
  | .subtract => "-"
  | .shiftLeft => "<<"
  | .shiftRight => ">>"
  | .bitAnd => "&"
  | .bitXor => "^"
  | .bitOr => "|"
  | .lessThan => "<"
  | .greaterThan => ">"
  | .lessThanOrEqual => "<="
  | .greaterThanOrEqual => ">="
  | .equal => "=="
  | .notEqual => "!="
  | .and => "&&"
  | .or => "||"
  | .assignSub => "-="
  | .assignAdd => "+="
  | .assign => "="

/-- The name of an operator in the JSON form. -/
def name : Operator → String
  | .not => "not"
  | .bitNot => "bitNot"
  | .exponent => "exponent"
  | .multiply => "multiply"
  | .divide => "divide"
  | .modulo => "modulo"
  | .add => "add"
  | .subtract => "subtract"
  | .shiftLeft => "shiftLeft"
  | .shiftRight => "shiftRight"
  | .bitAnd => "bitAnd"
  | .bitXor => "bitXor"
  | .bitOr => "bitOr"
  | .lessThan => "lessThan"
  | .greaterThan => "greaterThan"
  | .lessThanOrEqual => "lessThanOrEqual"
  | .greaterThanOrEqual => "greaterThanOrEqual"
  | .equal => "equal"
  | .notEqual => "notEqual"
  | .and => "and"
  | .or => "or"
  | .assignSub => "assignSub"
  | .assignAdd => "assignAdd"
  | .assign => "assign"

/-- The operator with exactly this spelling. -/
def ofSpelling? (text : String) : Option Operator :=
  all.find? fun operator => operator.spelling == text

/-- The operator with this name in the JSON form. -/
def ofName? (text : String) : Option Operator := all.find? fun operator => operator.name == text

theorem ofName?_name (operator : Operator) : ofName? operator.name = some operator := by
  cases operator <;> rfl

/-- How many characters an operator is written with. -/
def width (operator : Operator) : Nat := operator.spelling.length

end Operator

end CollectionSchema
