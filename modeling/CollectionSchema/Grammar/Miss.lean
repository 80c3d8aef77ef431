import CollectionSchema.SyntaxError

/-!
# What the grammar wanted and did not find

Rules of the grammar that do not match leave notes behind: how far they had come,
which rule it was and what it wanted there.  Rules are tried one after the other,
so the notes of alternatives that were given up are kept as well, in the order in
which they were made.  The error that is reported in the end sums up the notes
at the furthest token that any alternative reached.
-/

set_option autoImplicit false

namespace CollectionSchema

/-- The rules of the grammar that an error message can name. -/
inductive RuleName where
  | program
  | collection
  | item
  | field
  | index
  | indexField
  | function
  | decorator
  | type
  | arraySuffix
  | mapType
  | objectType
  | statement
  | letBinding
  | conditional
  | block
  | whileLoop
  | forLoop
  | value
  | call
  | expression
  deriving DecidableEq, Repr

namespace RuleName

/-- How an error message names a rule. -/
def text : RuleName → String
  | .program => "program"
  | .collection => "collection"
  | .item => "item"
  | .field => "field"
  | .index => "index"
  | .indexField => "index field"
  | .function => "function"
  | .decorator => "decorator"
  | .type => "type"
  | .arraySuffix => "array suffix"
  | .mapType => "map type"
  | .objectType => "object type"
  | .statement => "statement"
  | .letBinding => "let"
  | .conditional => "if"
  | .block => "block"
  | .whileLoop => "while"
  | .forLoop => "for"
  | .value => "value"
  | .call => "call"
  | .expression => "expression"

/-- Whether a rule only looks whether an optional shape follows: the parenthesis that would make a
call of a name, the operator behind a value, the brackets behind a basic type. -/
def isLookahead : RuleName → Bool
  | .call | .expression | .arraySuffix => true
  | _ => false

end RuleName

/-- What a rule wanted at a token. -/
inductive Expectation where
  | mark (character : Char)
  | word (spelling : String)
  | identifier
  | string
  | number
  /-- A number token is there, but it writes no integer in 64 bits. -/
  | integer
  | operator
  | decoratorName
  | sortOrder
  | basicType
  | declaration
  deriving DecidableEq, Repr

/-- How an error message lists what was wanted. -/
def Expectation.text : Expectation → String
  | .mark character => "'" ++ String.singleton character ++ "'"
  | .word spelling => "'" ++ spelling ++ "'"
  | .identifier => "identifier"
  | .string => "string"
  | .number => "number"
  | .integer => "integer literal"
  | .operator => "operator"
  | .decoratorName => "decorator name (public, read, call or delegate)"
  | .sortOrder => "sort order ('asc' or 'desc')"
  | .basicType => "basic type"
  | .declaration => "collection or function declaration"

/-- A note that a rule wanted something at a token and did not find it. -/
structure Miss where
  /-- How many tokens lie before that token. -/
  position : Nat
  /-- Whether a number token stands there whose text is no integer in 64 bits. -/
  literal : Bool
  rule : RuleName
  expected : Expectation
  deriving DecidableEq, Repr

/-- The same note with more tokens counted before it. -/
def Miss.shift (distance : Nat) (miss : Miss) : Miss :=
  { miss with position := distance + miss.position }

end CollectionSchema
