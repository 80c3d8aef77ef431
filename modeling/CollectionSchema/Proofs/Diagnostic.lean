import CollectionSchema.Diagnostic
import CollectionSchema.Proofs.ErrorItem
import CollectionSchema.Proofs.Text.Lines

/-!
# The caret of a diagnostic

A diagnostic has a row that shows the line of the error, and below it a row with a
caret.  When there is a character at the place of the error, it is shown behind as
many characters of the line as there are columns to the left of it, and the caret has
just as many characters of padding in front of it.

The two rows have different margins, though.  The number of the line takes three
characters at least, and the row of the caret leaves room for two, so the caret stands
to the left of the character.

Apart from the margins the rows are what they should be for every error, also for one at
the end of the input (`render_shows_line`): the line is the one that the line feeds of the
text separate, and its tabs are kept in the padding.
-/

set_option autoImplicit false

namespace CollectionSchema

/-! ## The rows -/

namespace Diagnostic

/-- The margin in front of the line of an error. -/
def margin (error : SyntaxError) : List Char :=
  (paddedNumber error.position.line ++ " | ").toList

/-- The row that shows the line of an error. -/
def lineRow (source : String) (error : SyntaxError) : List Char :=
  margin error ++ Text.line source.toList error.position.line

/-- The margin in front of the padding of the caret. -/
def caretMargin : List Char := "   | ".toList

/-- The row that shows the caret. -/
def caretRow (source : String) (error : SyntaxError) : List Char :=
  caretMargin ++
    padding (Text.line source.toList error.position.line) error.position.column ++ ['^']

/-- What stands above the two rows. -/
def heading (file : String) (error : SyntaxError) : String :=
  "error[" ++ error.code.text ++ "]: " ++ error.message ++ "\n" ++
    "  --> " ++ file ++ ":" ++ error.position.display ++ "\n" ++ "   |\n"

/-- What stands below the two rows. -/
def advice (error : SyntaxError) : String :=
  match error.help with
  | some help => "help: " ++ help ++ "\n"
  | none => ""

theorem render_eq (file source : String) (error : SyntaxError) :
    render file source error = heading file error ++ String.ofList (lineRow source error) ++ "\n" ++
      String.ofList (caretRow source error) ++ "\n" ++ advice error := by
  have ended : ∀ (above : String) (row : List Char),
      above ++ String.ofList (row ++ ['^']) ++ "\n" = above ++ String.ofList row ++ "^\n" := by
    intro above row
    have caret : String.ofList ['^'] ++ "\n" = "^\n" := by decide
    rw [String.ofList_append, String.append_assoc, String.append_assoc, caret, String.append_assoc]
  rw [caretRow, ended]
  unfold render
  refine congrArg (· ++ advice error) ?_
  unfold heading lineRow margin caretMargin
  simp only [String.ofList_append, String.ofList_toList, String.append_assoc]

theorem length_paddedNumber (number : Nat) :
    (paddedNumber number).length = max 3 (toString number).length := by
  rw [paddedNumber, String.length_append, String.length_pushn, String.length_empty]
  omega

theorem length_margin (error : SyntaxError) :
    (margin error).length = max 3 (toString error.position.line).length + 3 := by
  have bar : " | ".length = 3 := rfl
  rw [margin, String.length_toList, String.length_append, length_paddedNumber, bar]

theorem caret_notMem_padding (line : List Char) (column : Nat) : '^' ∉ padding line column := by
  intro member
  obtain ⟨character, _, same⟩ := List.mem_map.mp member
  split at same <;> cases same

/-- The caret stands behind its margin and as many characters as there are columns to the left of
the error, when the line has that many. -/
theorem idxOf_caretRow {source : String} {error : SyntaxError}
    (long : error.position.column - 1 ≤ (Text.line source.toList error.position.line).length) :
    (caretRow source error).idxOf '^' = caretMargin.length + (error.position.column - 1) := by
  have outside : '^' ∉ caretMargin ++
      padding (Text.line source.toList error.position.line) error.position.column := by
    rw [List.mem_append]
    rintro (member | member)
    · exact absurd member (by decide)
    · exact caret_notMem_padding _ _ member
  rw [caretRow, List.idxOf_append_of_notMem outside, List.idxOf_cons_self, List.length_append,
    padding, List.length_map, List.length_take, Nat.min_eq_left long, Nat.add_zero]

/-- An error at a character of a text is about the item that starts with this character.  In the
diagnostic the character stands in the row of the line, behind the margin and as many characters as
there are columns to the left of it.  The caret stands in its own row behind as many characters, but
its margin is shorter by one character, or by more when the number of the line has more than three
digits. -/
theorem caret_left_of_character {source : String} {found : SyntaxError} {front behind : List Char}
    {first : Char} (fails : parseText source = .error found)
    (text : source.toList = front ++ first :: behind)
    (place : found.position = Position.behind front) (file : String) :
    let columns := found.position.column - 1
    let digits := (toString found.position.line).length
    (∃ item, TokenStream.Heads found.position (first :: behind) item ∧
      TokenStream.Concerns item found) ∧
    render file source found =
      heading file found ++ String.ofList (lineRow source found) ++ "\n" ++
        String.ofList (caretRow source found) ++ "\n" ++ advice found ∧
    (lineRow source found)[(margin found).length + columns]? = some first ∧
    (caretRow source found).idxOf '^' = caretMargin.length + columns ∧
    (margin found).length = caretMargin.length + (max 3 digits - 2) := by
  intro columns digits
  obtain ⟨item, member, concerns⟩ := TokenStream.exists_concerned fails
  have arises := TokenStream.arises_of_mem member
  rw [text] at arises
  have heads := arises.heads_of_position (concerns.position.trans place)
  rw [concerns.position] at heads
  obtain ⟨_, _, same, solid⟩ := heads.exists_solid
  obtain ⟨rfl, rfl⟩ := List.cons.inj same
  have noFeed : first ≠ '\n' := by
    rintro rfl
    exact absurd solid (by decide)
  have noReturn : first ≠ '\r' := by
    rintro rfl
    exact absurd solid (by decide)
  obtain ⟨left, kept, line, length⟩ := @Text.exists_line front behind first noFeed noReturn
  rw [← text, ← place] at line
  rw [← place] at length
  refine ⟨⟨item, heads, concerns⟩, render_eq file source found, ?_, ?_, ?_⟩
  · rw [lineRow, List.getElem?_append_right (Nat.le_add_right _ _), Nat.add_sub_cancel_left, line,
      List.getElem?_append_right (Nat.le_of_eq length), length, Nat.sub_self]
    rfl
  · apply idxOf_caretRow
    rw [line, List.length_append, length]
    exact Nat.le_add_right _ _
  · rw [length_margin]
    have five : caretMargin.length = 5 := rfl
    omega

theorem parseText_dollar :
    parseText "abc $" = .error (.unexpectedCharacter '$' ⟨1, 5⟩) := by
  have refused : tokenize "abc $" = .error (.unexpectedCharacter '$' ⟨1, 5⟩) := by decide +kernel
  rw [parseText, refused]
  rfl

/-- The dollar sign of a line is shown behind ten characters, and the caret behind nine. -/
theorem caret_left_of_character_dollar :
    let found := SyntaxError.unexpectedCharacter '$' ⟨1, 5⟩
    (lineRow "abc $" found)[10]? = some '$' ∧ (caretRow "abc $" found).idxOf '^' = 9 := by
  intro found
  have split : "abc $".toList = "abc ".toList ++ '$' :: [] := by decide
  obtain ⟨_, _, character, caret, _⟩ :=
    caret_left_of_character parseText_dollar split (by decide) "x"
  exact ⟨character, caret⟩

/-- The caret does not stand in its row where the character of the error stands in the row above. -/
theorem caret_not_under_character :
    ¬ ∀ (source : String) (found : SyntaxError) (front behind : List Char) (first : Char),
      parseText source = .error found → source.toList = front ++ first :: behind →
      found.position = Position.behind front →
      (caretRow source found).idxOf '^' = (margin found).length + (found.position.column - 1) := by
  intro under
  have split : "abc $".toList = "abc ".toList ++ '$' :: [] := by decide
  have same := under _ _ _ _ _ parseText_dollar split (by decide)
  exact absurd same (by decide)

/-! ## The line and the padding -/

/-- The padding of a column that the line reaches has one character for each column to the left. -/
theorem length_padding {line : List Char} {column : Nat} (long : column - 1 ≤ line.length) :
    (padding line column).length = column - 1 := by
  rw [padding, List.length_map, List.length_take, Nat.min_eq_left long]

/-- The padding has a tab where the line has one, and a space elsewhere. -/
theorem getElem?_padding {row : List Char} {column index : Nat} (long : column - 1 ≤ row.length)
    (lt : index < column - 1) : ∃ character, row[index]? = some character ∧
      (padding row column)[index]? = some (if character = '\t' then '\t' else ' ') := by
  have inside := Nat.lt_of_lt_of_le lt long
  refine ⟨row[index], List.getElem?_eq_getElem inside, ?_⟩
  rw [padding, List.getElem?_map, List.getElem?_take_of_lt lt, List.getElem?_eq_getElem inside,
    Option.map_some]

/-- What stands at the place of an item: its first character, or nothing when it is the end of the
input. -/
inductive Shows : StreamItem → Option Char → Prop
  | token {token : Token} {first : Char} {others : List Char} (proper : token.isEnd = false)
      (written : token.lexeme.toList = first :: others) : Shows (.ok token) (some first)
  | character {character : Char} {place : Position} :
      Shows (.error (.unexpectedCharacter character place)) (some character)
  | ended {place : Position} : Shows (.ok (Token.endAt place)) none

/-- An item that is given for the front of a text shows its first character. -/
theorem shows_of_heads {place : Position} {text : List Char} {item : StreamItem}
    (heads : TokenStream.Heads place text item) : ∃ first behind, text = first :: behind ∧
      first ≠ '\n' ∧ first ≠ '\r' ∧ Shows item (some first) := by
  obtain ⟨first, behind, rfl, solid⟩ := heads.exists_solid
  refine ⟨first, behind, rfl, ?_, ?_, ?_⟩
  · rintro rfl
    exact absurd solid (by decide)
  · rintro rfl
    exact absurd solid (by decide)
  · cases heads with
    | @token _ kind cut found =>
        obtain ⟨divides, proper⟩ := Pattern.firstMatch_divides found
        obtain ⟨head, others, taken⟩ := List.exists_cons_of_ne_nil divides.taken
        have whole := divides.whole
        rw [taken] at whole
        obtain ⟨rfl, _⟩ := List.cons.inj whole
        have isToken : (⟨kind, String.ofList cut.taken, place⟩ : Token).isEnd = false := by
          simpa [Token.isEnd] using proper
        exact .token isToken ((String.toList_ofList).trans taken)
    | wrong _ => exact .character

/-- The line of an error has a character for each column to the left of the error, and behind these
it shows what the error is about. -/
theorem line_shows {source : List Char} {item : StreamItem}
    (arises : TokenStream.Arises [] source item) :
    let place := TokenStream.itemPosition item
    let row := Text.line source place.line
    0 < place.line ∧ place.line ≤ (source.splitOn '\n').length ∧ 0 < place.column ∧
      place.column - 1 ≤ row.length ∧ Shows item row[place.column - 1]? := by
  have positive : ∀ front, 0 < (Position.behind front).line ∧ 0 < (Position.behind front).column :=
    fun _ => ⟨Nat.add_pos_left Nat.one_pos _, Nat.add_pos_left Nat.one_pos _⟩
  cases arises with
  | ended =>
      have length := Text.length_last_line source
      have inside := Text.line_behind_le source []
      rw [List.append_nil] at inside
      refine ⟨(positive source).1, inside, (positive source).2, Nat.le_of_eq length.symm, ?_⟩
      have nothing := List.getElem?_eq_none (Nat.le_of_eq length)
      exact nothing ▸ .ended
  | @inside front rest _ heads =>
      have place : TokenStream.itemPosition item = Position.behind front := by
        cases heads <;> rfl
      obtain ⟨first, behind, rfl, noFeed, noReturn, shows⟩ := shows_of_heads heads
      obtain ⟨left, kept, line, length⟩ := @Text.exists_line front behind first noFeed noReturn
      rw [place]
      refine ⟨(positive front).1, Text.line_behind_le front _, (positive front).2, ?_, ?_⟩
      · rw [line, List.length_append, length]
        exact Nat.le_add_right _ _
      · rw [line, List.getElem?_append_right (Nat.le_of_eq length), length, Nat.sub_self]
        exact shows

/-- In a diagnostic of a text that fails to parse, the row of the error is the line that the line
feeds of the text separate.  The padding of the caret has one character for each column to the left
of the error: a tab where the line has a tab, and a space where it has another character.  Behind as
many characters the line shows what the error is about, and it ends there when that is the end of
the input. -/
theorem render_shows_line {source : String} {found : SyntaxError}
    (fails : parseText source = .error found) (file : String) :
    ∃ row spaces item,
      render file source found =
        heading file found ++ String.ofList (margin found ++ row) ++ "\n" ++
          String.ofList (caretMargin ++ spaces ++ ['^']) ++ "\n" ++ advice found ∧
      Text.segmentLine? source.toList found.position.line = some row ∧
      spaces.length + 1 = found.position.column ∧
      (∀ index < spaces.length, ∃ character, row[index]? = some character ∧
        spaces[index]? = some (if character = '\t' then '\t' else ' ')) ∧
      item ∈ (TokenStream.ofText source.toList).items ∧ TokenStream.Concerns item found ∧
      Shows item row[spaces.length]? := by
  obtain ⟨item, member, concerns⟩ := TokenStream.exists_concerned fails
  obtain ⟨positive, inside, some, long, shows⟩ := line_shows (TokenStream.arises_of_mem member)
  rw [concerns.position] at positive inside some long shows
  have length := length_padding long
  refine ⟨_, _, item, render_eq file source found, Text.line_of_segments positive inside, ?_, ?_,
    member, concerns, ?_⟩
  · rw [length, Nat.sub_add_cancel some]
  · intro index lt
    exact getElem?_padding long (length ▸ lt)
  · rwa [length]

/-- A string that is not closed is shown behind the tab in front of it, without the carriage return
behind it. -/
theorem render_shows_line_of_quote :
    let found := SyntaxError.unexpectedCharacter '\'' ⟨2, 2⟩
    parseText "a\r\n\t' \r\n" = .error found ∧
    render "x" "a\r\n\t' \r\n" found =
      heading "x" found ++ String.ofList (margin found ++ ['\t', '\'', ' ']) ++ "\n" ++
        String.ofList (caretMargin ++ ['\t'] ++ ['^']) ++ "\n" ++ advice found := by
  intro found
  have fails : parseText "a\r\n\t' \r\n" = .error found := by
    have refused : tokenize "a\r\n\t' \r\n" = .error found := by decide +kernel
    rw [parseText, refused]
    rfl
  obtain ⟨row, spaces, item, rendered, line, length, padded, _⟩ := render_shows_line fails "x"
  have segment : Text.segmentLine? "a\r\n\t' \r\n".toList 2 = some ['\t', '\'', ' '] := by decide
  obtain rfl : ['\t', '\'', ' '] = row := Option.some.inj (segment.symm.trans line)
  obtain ⟨space, rfl⟩ := List.length_eq_one_iff.mp (Nat.succ.inj length)
  obtain ⟨_, ⟨⟩, shown⟩ := padded 0 Nat.one_pos
  obtain rfl : space = '\t' := Option.some.inj shown
  exact ⟨fails, rendered⟩

end Diagnostic

end CollectionSchema
