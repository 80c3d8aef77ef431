import CollectionSchema.Grammar.Declaration
import CollectionSchema.Grammar.Furthest
import CollectionSchema.Token.Stream

/-!
# Parsing a list of tokens

A parse session holds the tokens of one text, the place up to which declarations
were read, and the furthest failure so far.  Parsing reads declarations as long as
there are any; it succeeds when the end of the input follows them.  Otherwise the
furthest failure is the error, and when nothing got past the first token that is
left over, the error says that a declaration was expected there.

A session can be asked to parse again.  It then goes on from where it stands, and
the furthest failure stays.
-/

set_option autoImplicit false

namespace CollectionSchema

/-- Tokens with the end of the input behind them; it is added when it is missing, at the place of
the last token. -/
def closed (tokens : List Token) : List Token :=
  match tokens.getLast? with
  | none => [Token.endAt Position.start]
  | some last => if last.isEnd then tokens else tokens ++ [Token.endAt last.position]

/-- A list of tokens that is being parsed. -/
structure ParseSession where
  tokens : List Token
  /-- How many tokens belong to declarations that were read. -/
  position : Nat
  furthest : Option Furthest

namespace ParseSession

/-- A session at the start of a list of tokens. -/
def ofTokens (tokens : List Token) : ParseSession := ⟨closed tokens, 0, none⟩

/-- The token with a number of tokens before it; behind the last one the input has ended. -/
def tokenAt (session : ParseSession) (position : Nat) : Token :=
  session.tokens[position]?.getD (Token.endAt Position.start)

/-- The record to report when declarations end at a token that is not the end of the input. -/
def reported (furthest : Option Furthest) (position : Nat) : Furthest :=
  match furthest with
  | none => Furthest.declarationAt position
  | some known => if known.position ≤ position then Furthest.declarationAt position else known

/-- Reads all declarations from the current place on. -/
def parse (session : ParseSession) : Except SyntaxError Program × ParseSession :=
  let reply := Rule.many Grammar.declaration (session.tokens.drop session.position)
  let (declarations, taken) := reply.found.getD ([], 0)
  let position := session.position + taken
  let furthest :=
    Furthest.recordAll session.furthest (reply.misses.map (Miss.shift session.position))
  if (session.tokenAt position).isEnd then
    (.ok ⟨declarations⟩, ⟨session.tokens, position, furthest⟩)
  else
    let record := reported furthest position
    (.error (record.toSyntaxError (session.tokenAt record.position)),
      ⟨session.tokens, position, some record⟩)

end ParseSession

/-- The program that a list of tokens writes. -/
def parse (tokens : List Token) : Except SyntaxError Program :=
  (ParseSession.ofTokens tokens).parse.1

/-- The program that a text writes. -/
def parseText (source : String) : Except SyntaxError Program := do
  parse (← tokenize source)

end CollectionSchema
