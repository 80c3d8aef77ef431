import CollectionSchema.SyntaxError
import CollectionSchema.Token.Pattern

/-!
# The tokens of a text

A token stream stands somewhere in a text and hands out one item at a time: the
tokens in order, then the end of the input, and after that nothing.  A character
that starts no token is handed out as an error instead, and it too is the last
item.  The place of the stream is always the place of the first character that
it has not passed.
-/

set_option autoImplicit false

namespace CollectionSchema

/-- What a token stream hands out: a token, or the error that ends the stream. -/
abbrev StreamItem := Except SyntaxError Token

/-- A text that is being cut into tokens. -/
structure TokenStream where
  /-- The whole text. -/
  source : List Char
  /-- The characters that are still to come. -/
  rest : List Char
  /-- The place of the first of them. -/
  position : Position
  /-- Whether the last item was handed out. -/
  finished : Bool
  deriving DecidableEq, Repr

namespace TokenStream

/-- A stream at the start of a text. -/
def ofText (source : List Char) : TokenStream := ⟨source, source, Position.start, false⟩

/-- The same text from its start again. -/
def restart (stream : TokenStream) : TokenStream := ofText stream.source

/-- The item at the front of a text, with the text and the place behind it.  Pieces that make no
token are passed over; the first argument bounds how many. -/
def scan : Nat → List Char → Position → StreamItem × List Char × Position
  | 0, text, position => (.ok (Token.endAt position), text, position)
  | bound + 1, text, position =>
    match text with
    | [] => (.ok (Token.endAt position), [], position)
    | character :: _ =>
      match Pattern.firstMatch text with
      | none => (.error (SyntaxError.unexpectedCharacter character position), text, position)
      | some (none, cut) => scan bound cut.left (position.after cut.taken)
      | some (some kind, cut) =>
        (.ok ⟨kind, String.ofList cut.taken, position⟩, cut.left, position.after cut.taken)

/-- Whether an item is the last one of its stream. -/
def isLast : StreamItem → Bool
  | .ok token => token.isEnd
  | .error _ => true

/-- The next item and the stream behind it, or nothing when the last item is out. -/
def next (stream : TokenStream) : Option (StreamItem × TokenStream) :=
  if stream.finished then none
  else
    let (item, rest, position) := scan (stream.rest.length + 1) stream.rest stream.position
    some (item, ⟨stream.source, rest, position, isLast item⟩)

/-- The items of a stream, at most as many as the first argument says. -/
def takeItems : Nat → TokenStream → List StreamItem
  | 0, _ => []
  | bound + 1, stream =>
    match stream.next with
    | none => []
    | some (item, later) => item :: takeItems bound later

/-- All items that a stream still has to hand out. -/
def items (stream : TokenStream) : List StreamItem := stream.takeItems (stream.rest.length + 1)

end TokenStream

/-- The tokens of a text with the end of the input as the last one, or the first error. -/
def tokenize (source : String) : Except SyntaxError (List Token) :=
  (TokenStream.ofText source.toList).items.mapM id

end CollectionSchema
