import CollectionSchema.Grammar.Rule
import CollectionSchema.Syntax.Operator
import CollectionSchema.Syntax.Word

/-!
# Recognizers

An operator, a decorator name, a sort order or a basic type is known by its
tokens alone.  A recognizer looks at what follows and says which of them it is
and how many tokens write it.

Punctuation marks are single characters, so an operator with two characters
arrives as two tokens: the first must be an operator by itself, and both together
must spell one.
-/

set_option autoImplicit false

namespace CollectionSchema

/-- Looks at the next tokens and claims some of them for a value. -/
structure Recognizer (α : Type) where
  /-- What is noted when nothing is claimed. -/
  expected : Expectation
  look : List Token → Option (α × Nat)

namespace Recognizer

/-- A recognizer as a rule. -/
def rule {α : Type} (recognizer : Recognizer α) (name : RuleName) : Rule α :=
  Rule.claim name recognizer.expected recognizer.look

/-- The operator that two neighbouring tokens spell together. -/
def pair? (first second : Token) : Option Operator :=
  if second.kind = .symbol then Operator.ofSpelling? (first.lexeme ++ second.lexeme) else none

/-- Recognizes an operator, and prefers one with two characters. -/
def operator : Recognizer Operator where
  expected := .operator
  look
    | [] => none
    | first :: rest =>
      if first.kind = .symbol then
        match Operator.ofSpelling? first.lexeme with
        | none => none
        | some single =>
          match rest.head?.bind (pair? first) with
          | some double => some (double, 2)
          | none => some (single, 1)
      else none

/-- Recognizes an identifier that a closed set of words contains. -/
def ofWords {α : Type} (expected : Expectation) (ofWord? : String → Option α) : Recognizer α where
  expected := expected
  look
    | [] => none
    | token :: _ =>
      if token.kind = .identifier then (ofWord? token.lexeme).map fun value => (value, 1) else none

/-- Recognizes the name of a decorator. -/
def decoratorName : Recognizer DecoratorName := ofWords .decoratorName DecoratorName.ofWord?

/-- Recognizes a sort order. -/
def sortOrder : Recognizer SortOrder := ofWords .sortOrder SortOrder.ofWord?

/-- Recognizes a basic type. -/
def basicType : Recognizer BasicType := ofWords .basicType BasicType.ofWord?

end Recognizer

end CollectionSchema
