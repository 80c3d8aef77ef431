import CollectionSchema.Text.Escape
import CollectionSchema.Token.Basic
import CollectionSchema.Token.Keyword

/-!
# Syntax errors

A schema text fails in one place: at a character that starts no token, or at a
token that the grammar cannot accept there.  The error says where, in which rule
of the grammar, what was expected and what was found.
-/

set_option autoImplicit false

namespace CollectionSchema

/-- The sorts of syntax errors: three that this library reports, and those of other tools. -/
inductive SyntaxError.Code where
  /-- A character starts no token. -/
  | lexical
  /-- A token does not fit the grammar. -/
  | grammar
  /-- A number token stands where an integer fits, but is none in 64 bits. -/
  | literal
  /-- Another tool gave the error a name of its own. -/
  | custom (name : String)
  deriving DecidableEq, Repr

/-- The stable name of a sort of error. -/
def SyntaxError.Code.text : SyntaxError.Code → String
  | .lexical => "E_LEX"
  | .grammar => "E_SYNTAX"
  | .literal => "E_LITERAL"
  | .custom name => name

/-- The sort of error with this name. -/
def SyntaxError.Code.ofText (name : String) : SyntaxError.Code :=
  if name = "E_LEX" then .lexical
  else if name = "E_SYNTAX" then .grammar
  else if name = "E_LITERAL" then .literal
  else .custom name

/-- One lexical or grammatical failure in a schema text. -/
structure SyntaxError where
  code : SyntaxError.Code
  message : String
  position : Position
  /-- The innermost rule of the grammar that failed; a lexical failure has none. -/
  rule : Option String
  help : Option String
  deriving DecidableEq, Repr

namespace SyntaxError

/-- Alternatives in words: commas between them, and the last one after an `or`. -/
def alternatives : List String → String
  | [] => "valid input"
  | [only] => only
  | first :: second :: others =>
    ", ".intercalate (first :: second :: others).dropLast ++ " or " ++
      (second :: others).getLast (List.cons_ne_nil _ _)

/-- A character that starts no token. -/
def unexpectedCharacter (character : Char) (position : Position) : SyntaxError where
  code := .lexical
  message := "unexpected character '" ++ Text.shownInMessage character ++ "'"
  position := position
  rule := none
  help := some "only identifiers, quoted strings, numbers and punctuation are allowed"

/-- The help for a token that is a keyword elsewhere. -/
def keywordHelp (found : Token) : Option String :=
  if found.kind = .identifier ∧ isContextualKeyword found.lexeme = true then
    some ("'" ++ found.lexeme ++
      "' is only a keyword at specific positions; check the tokens before it")
  else none

/-- A token that the grammar cannot accept, with everything that would have fitted in its place. -/
def unexpectedToken (code : Code) (rule : String) (expected : List String) (found : Token) :
    SyntaxError where
  code := code
  message := "expected " ++ alternatives expected ++ ", found " ++ found.description
  position := found.position
  rule := some rule
  help := keywordHelp found

/-- The error on one line: its message, its place and its rule. -/
def display (error : SyntaxError) : String :=
  error.message ++ " at " ++ error.position.display ++
    match error.rule with
    | some rule => " in " ++ rule
    | none => ""

end SyntaxError

end CollectionSchema
