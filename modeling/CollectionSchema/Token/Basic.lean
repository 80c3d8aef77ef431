import CollectionSchema.Text.Position

/-!
# Tokens

A token is a piece of a schema text with its kind and the place where it starts.
Words that act as keywords are identifiers here; the grammar tells them apart by
where they stand.
-/

set_option autoImplicit false

namespace CollectionSchema

/-- What a token is, whatever its text. -/
inductive TokenKind where
  | identifier
  | string
  | number
  | symbol
  | endOfInput
  deriving DecidableEq, Repr

/-- A piece of a schema text: its kind, its characters and its place. -/
structure Token where
  kind : TokenKind
  lexeme : String
  position : Position
  deriving DecidableEq, Repr

namespace Token

/-- The token that stands behind the last character of a text. -/
def endAt (position : Position) : Token := ⟨.endOfInput, "", position⟩

/-- What a token is, whatever its place. -/
def content (token : Token) : TokenKind × String := (token.kind, token.lexeme)

/-- Whether a token is the end of its text. -/
def isEnd (token : Token) : Bool := token.kind == .endOfInput

/-- Whether a token is an identifier with exactly this spelling. -/
def isWord (token : Token) (word : String) : Bool :=
  token.kind == .identifier && token.lexeme == word

/-- Whether a token is exactly this punctuation mark. -/
def isSymbol (token : Token) (mark : Char) : Bool :=
  token.kind == .symbol && token.lexeme == String.singleton mark

/-- How an error message names a token that it did not expect. -/
def description (token : Token) : String :=
  if token.isEnd then "end of input" else "'" ++ token.lexeme ++ "'"

end Token

end CollectionSchema
