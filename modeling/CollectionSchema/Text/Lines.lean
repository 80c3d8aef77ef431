/-!
# The lines of a text

A text falls into pieces that each end with a line feed, save that the last one
may lack it.  The line that a piece shows is the piece without its line feed and
without a carriage return directly before that.  So a text that ends in a line
feed has no further line, and a last piece without one keeps all its characters.
-/

set_option autoImplicit false

namespace CollectionSchema.Text

/-- The pieces of a text, each with the line feed that ends it. -/
def pieces : List Char → List (List Char)
  | [] => []
  | character :: rest =>
    if character = '\n' then [character] :: pieces rest
    else match pieces rest with
      | [] => [[character]]
      | piece :: others => (character :: piece) :: others

/-- The pieces of a text make up the text. -/
theorem flatten_pieces (text : List Char) : (pieces text).flatten = text := by
  induction text with
  | nil => rfl
  | cons character rest ih =>
    simp only [pieces]
    split
    · simp [ih]
    · split <;> simp_all

/-- What a piece shows as a line. -/
def shown (piece : List Char) : List Char :=
  match piece.reverse with
  | '\n' :: '\r' :: rest => rest.reverse
  | '\n' :: rest => rest.reverse
  | _ => piece

/-- The lines of a text, in order. -/
def lines (text : List Char) : List (List Char) := (pieces text).map shown

/-- The line with a number counted from one; line zero is the first line, and a line past the end
is empty. -/
def line (text : List Char) (number : Nat) : List Char := ((lines text)[number - 1]?).getD []

end CollectionSchema.Text
