import CollectionSchema.Proofs.ErrorLocation
import CollectionSchema.Proofs.Token.Joining
import CollectionSchema.Proofs.Token.Scanning

/-!
# The item that an error is about

An error of a text is about an item of the text: about the error of a character that
starts no token, or about a token that the grammar refuses.  Every item but the end of
the input is given for the front of some rest of the text, and its place tells which
rest that is.  So when there is a character at the place of an error, the item starts
with this character, and the character is no white space.
-/

set_option autoImplicit false

namespace CollectionSchema

/-! ## Where an item comes from -/

namespace TokenStream

open Regex (Scan)

/-- An item that a text gives for its front: a token, or the error of its first character. -/
inductive Heads (place : Position) : List Char → StreamItem → Prop
  | token {text : List Char} {kind : TokenKind} {cut : Cut}
      (found : Pattern.firstMatch text = some (some kind, cut)) :
      Heads place text (.ok ⟨kind, String.ofList cut.taken, place⟩)
  | wrong {character : Char} {rest : List Char}
      (missed : Pattern.firstMatch (character :: rest) = none) :
      Heads place (character :: rest) (.error (.unexpectedCharacter character place))

/-- What an item is given for does not start with white space. -/
theorem Heads.exists_solid {place : Position} {text : List Char} {item : StreamItem}
    (heads : Heads place text item) :
    ∃ first rest, text = first :: rest ∧ Text.isBlank first = false := by
  cases heads with
  | token found =>
      obtain ⟨_, first, head, solid⟩ := Pattern.of_token found
      obtain ⟨rest, rfl⟩ := List.head?_eq_some_iff.mp head
      exact ⟨first, rest, rfl, solid⟩
  | @wrong character rest missed =>
      refine ⟨character, rest, rfl, ?_⟩
      rcases blank : Text.isBlank character with _ | _
      · rfl
      · rw [Pattern.firstMatch_blank blank] at missed
        cases missed

/-- An item comes out of a text that has another text in front of it: it is the end of the input,
or it is given for the front of some rest of the text. -/
inductive Arises (before : List Char) : List Char → StreamItem → Prop
  | ended {text : List Char} :
      Arises before text (.ok (Token.endAt (Position.behind (before ++ text))))
  | inside {front rest : List Char} {item : StreamItem}
      (heads : Heads (Position.behind (before ++ front)) rest item) :
      Arises before (front ++ rest) item

theorem Arises.here {before text : List Char} {item : StreamItem}
    (heads : Heads (Position.behind before) text item) : Arises before text item := by
  have inside := @Arises.inside before [] text item
  rw [List.append_nil] at inside
  exact inside heads

theorem Arises.behind {before piece text : List Char} {item : StreamItem}
    (arises : Arises (before ++ piece) text item) : Arises before (piece ++ text) item := by
  cases arises with
  | ended =>
      rw [List.append_assoc]
      exact .ended
  | inside heads =>
      rw [List.append_assoc] at heads
      rw [← List.append_assoc]
      exact .inside heads

theorem arises_of_scan {text : List Char} {place : Position} {items : List StreamItem}
    (scan : Scan text place items) : ∀ {before : List Char}, place = Position.behind before →
      ∀ item ∈ items, Arises before text item := by
  induction scan with
  | ended =>
      rintro before rfl item member
      rw [List.mem_singleton.mp member]
      have ended := @Arises.ended before []
      rwa [List.append_nil] at ended
  | wrong declines =>
      rintro before rfl item member
      rw [List.mem_singleton.mp member]
      exact .here (.wrong (Regex.firstMatch_eq_none.mpr declines))
  | @skip text cut _ _ prefers _ ih =>
      rintro before rfl item member
      have whole := (Pattern.firstMatch_divides (Regex.firstMatch_eq_some.mpr prefers)).1.whole
      have arises := ih (Position.behind_append before cut.taken).symm item member
      rw [← whole]
      exact arises.behind
  | @token text _ cut _ _ prefers _ ih =>
      rintro before rfl item member
      have found := Regex.firstMatch_eq_some.mpr prefers
      rcases List.mem_cons.mp member with rfl | member
      · exact .here (.token found)
      · have arises := ih (Position.behind_append before cut.taken).symm item member
        rw [← (Pattern.firstMatch_divides found).1.whole]
        exact arises.behind

theorem arises_of_mem {source : String} {item : StreamItem}
    (member : item ∈ (ofText source.toList).items) : Arises [] source.toList item :=
  arises_of_scan ((scan_iff source _).mpr rfl) rfl item member

/-- An item at a character of a text is given for what starts with that character. -/
theorem Arises.heads_of_position {front rest : List Char} {first : Char} {item : StreamItem}
    (arises : Arises [] (front ++ first :: rest) item)
    (place : itemPosition item = Position.behind front) :
    Heads (itemPosition item) (first :: rest) item := by
  generalize text : front ++ first :: rest = whole at arises
  cases arises with
  | ended =>
      rw [← text] at place
      have whole : front ++ first :: rest ++ [] = front ++ first :: rest := List.append_nil _
      have same := Position.eq_of_behind_eq whole place
      exact absurd (List.append_right_eq_self.mp same) (List.cons_ne_nil first rest)
  | @inside other more _ heads =>
      have there : itemPosition item = Position.behind other := by
        cases heads <;> rfl
      obtain rfl := Position.eq_of_behind_eq text (place.symm.trans there)
      rw [there, List.append_cancel_left text]
      exact heads

/-! ## What an error is about -/

theorem error_mem_of_mapM {items : List StreamItem} {error : SyntaxError}
    (made : items.mapM id = .error error) : .error error ∈ items := by
  induction items with
  | nil => cases made
  | cons item rest ih =>
      rw [List.mapM_cons] at made
      rcases item with found | token
      · cases made
        exact List.mem_cons_self
      · rcases others : rest.mapM id with found | later
        · rw [others] at made
          cases made
          exact List.mem_cons_of_mem _ (ih others)
        · rw [others] at made
          cases made

/-- An error is about an item: about one that is this error itself, or about a token at which a
record of the furthest failure points. -/
inductive Concerns : StreamItem → SyntaxError → Prop
  | character {error : SyntaxError} : Concerns (.error error) error
  | token {record : Furthest} {token : Token} : Concerns (.ok token) (record.toSyntaxError token)

theorem Concerns.position {item : StreamItem} {error : SyntaxError}
    (concerns : Concerns item error) : itemPosition item = error.position := by
  cases concerns <;> rfl

end TokenStream

/-- A list of tokens fails with an error about one of them. -/
theorem ParseSession.exists_refused {tokens : List Token} {error : SyntaxError}
    (failed : CollectionSchema.parse tokens = .error error) :
    ∃ (record : Furthest) (token : Token), token ∈ closed tokens ∧
      error = record.toSyntaxError token := by
  obtain ⟨misses, found, taken, run⟩ := exists_run tokens
  obtain ⟨place, position, stuck⟩ := exists_reported run
  rcases more : ((ofTokens tokens).tokenAt taken).isEnd with _ | _
  case true =>
    rw [parse_of_ended run more] at failed
    cases failed
  have inside := lt_length_closed (stuck.passes run)
  rw [parse_of_not_ended run more] at failed
  have same := Except.error.inj failed
  rw [position, tokenAt, ofTokens, List.getElem?_eq_getElem inside, Option.getD_some] at same
  exact ⟨_, (closed tokens)[place], List.getElem_mem inside, same.symm⟩

/-- A text fails with an error about one of its items. -/
theorem TokenStream.exists_concerned {source : String} {error : SyntaxError}
    (fails : parseText source = .error error) :
    ∃ item ∈ (ofText source.toList).items, Concerns item error := by
  rcases made : tokenize source with found | tokens
  · rw [parseText, made] at fails
    cases fails
    exact ⟨_, error_mem_of_mapM made, .character⟩
  · rw [parseText, made] at fails
    obtain ⟨record, token, member, rfl⟩ := ParseSession.exists_refused fails
    obtain ⟨front, last, rfl, _, ended⟩ := (lexes_tokenize source).exists_ended made
    rw [closed_of_ended ended] at member
    rw [eq_of_mapM made]
    exact ⟨_, List.mem_map_of_mem member, .token⟩

end CollectionSchema
