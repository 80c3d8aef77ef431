import CollectionSchema.Grammar.Miss

/-!
# The furthest failure

Of all notes that failed rules leave behind, only those at the furthest token
count.  They are merged into one record: everything that was wanted there, in the
order in which it was first noted, and one rule.  That is the first rule that
failed there, unless it was only looking ahead and another rule needed the token.
-/

set_option autoImplicit false

namespace CollectionSchema

/-- The summary of the notes at the furthest token that any rule reached. -/
structure Furthest where
  /-- How many tokens lie before that token. -/
  position : Nat
  /-- Whether a number token there was refused for its text. -/
  literal : Bool
  rule : RuleName
  /-- What was wanted there; nothing stands in the list twice. -/
  expected : List Expectation
  deriving DecidableEq, Repr

namespace Furthest

/-- The record of a single note. -/
def ofMiss (miss : Miss) : Furthest := ⟨miss.position, miss.literal, miss.rule, [miss.expected]⟩

/-- A record with one more note at the same token. -/
def merge (furthest : Furthest) (miss : Miss) : Furthest where
  position := furthest.position
  literal := furthest.literal || miss.literal
  rule := if furthest.rule.isLookahead && !miss.rule.isLookahead then miss.rule else furthest.rule
  expected :=
    if furthest.expected.contains miss.expected then furthest.expected
    else furthest.expected ++ [miss.expected]

/-- Takes one more note into account: a note further on starts the record anew, one at the same
token is merged, and one before it is forgotten. -/
def record (furthest : Option Furthest) (miss : Miss) : Option Furthest :=
  match furthest with
  | none => some (ofMiss miss)
  | some known =>
    if miss.position < known.position then some known
    else if miss.position = known.position then some (known.merge miss)
    else some (ofMiss miss)

/-- Takes notes into account in their order. -/
def recordAll (furthest : Option Furthest) (misses : List Miss) : Option Furthest :=
  misses.foldl record furthest

/-- The record of a text that goes on where only another declaration could stand. -/
def declarationAt (position : Nat) : Furthest := ⟨position, false, .program, [.declaration]⟩

/-- The error that a record reports about the token that it points to. -/
def toSyntaxError (furthest : Furthest) (found : Token) : SyntaxError :=
  SyntaxError.unexpectedToken (if furthest.literal then .literal else .grammar) furthest.rule.text
    (furthest.expected.map Expectation.text) found

end Furthest

end CollectionSchema
