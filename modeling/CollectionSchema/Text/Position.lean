/-!
# Positions in a schema text

A position is a line and a column, both counted from one, and a column counts
characters.  Only a line feed starts a new line, so the position that follows a
piece of text is a fold over its characters, and the position after two pieces
is reached by going over the first and then over the second.
-/

set_option autoImplicit false

namespace CollectionSchema

/-- A place in a text: a line, and a column that counts characters. -/
structure Position where
  line : Nat
  column : Nat
  deriving DecidableEq, Repr

namespace Position

/-- The place of the first character of a text. -/
def start : Position := ⟨1, 1⟩

instance : Inhabited Position := ⟨start⟩

/-- The place after one character. -/
def advance (place : Position) (character : Char) : Position :=
  if character = '\n' then ⟨place.line + 1, 1⟩ else ⟨place.line, place.column + 1⟩

/-- The place after a piece of text. -/
def after (place : Position) (text : List Char) : Position := text.foldl advance place

@[simp] theorem after_nil (place : Position) : place.after [] = place := rfl

@[simp] theorem after_cons (place : Position) (character : Char) (text : List Char) :
    place.after (character :: text) = (place.advance character).after text := rfl

theorem after_append (place : Position) (first second : List Char) :
    place.after (first ++ second) = (place.after first).after second := by
  simp [after, List.foldl_append]

/-- Line and column with a colon between them. -/
def display (place : Position) : String := toString place.line ++ ":" ++ toString place.column

/-- Whether a place comes no later than another: by line, and on one line by column. -/
def atMost (first second : Position) : Bool :=
  first.line < second.line || (first.line == second.line && first.column ≤ second.column)

/-- Places in the order of the text; equal places keep their order. -/
def sorted (places : List Position) : List Position := places.mergeSort atMost

end Position

end CollectionSchema
