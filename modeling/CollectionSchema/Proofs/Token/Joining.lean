import CollectionSchema.Proofs.Peg.Neighbours
import CollectionSchema.Proofs.Token.Lexing

/-!
# A text behind a line feed

When a text makes tokens, a line feed and another text behind it leave these tokens
as they are, and the tokens of the other text follow them.  Strings of the first text
are closed, or it would make an error.  Comments are closed as well, unless a slash
and a star stand next to each other among its tokens, which no program allows.  White
space at the end of the first text goes on behind it, and makes no token there either.
-/

set_option autoImplicit false

namespace CollectionSchema

open Pattern (firstMatch comment blanks string Steady)

/-! ## White space in front of a text -/

namespace Pattern

theorem firstMatch_blank {first : Char} (blank : Text.isBlank first = true) (rest : List Char) :
    firstMatch (first :: rest) = some (none, (Cut.run Text.isBlank rest).prepend [first]) := by
  have other : first ≠ '/' := by
    rintro rfl
    exact absurd blank (by decide)
  simp [firstMatch, table, comment_of_ne other, blanks, blank]

end Pattern

theorem Lexes.blank {more : List Char} {first : Char} {place : Position}
    {result : Except SyntaxError (List Token)} (blank : Text.isBlank first = true)
    (lexes : Lexes more (place.advance first) result) : Lexes (first :: more) place result := by
  refine .skip (Pattern.firstMatch_blank blank more) ?_
  rcases more with _ | ⟨second, rest⟩
  · exact lexes
  · rcases next : Text.isBlank second with _ | _
    · simpa [Cut.run, Cut.prepend, next] using lexes
    · have found := Pattern.firstMatch_blank next rest
      cases lexes with
      | wrong missed => rw [found] at missed; cases missed
      | token read => rw [found] at read; cases read
      | skip read behind =>
          rw [found] at read
          cases read
          simpa [Cut.run, Cut.prepend, next] using behind

theorem Lexes.blanks {front more : List Char} {place : Position}
    {result : Except SyntaxError (List Token)}
    (blank : ∀ character ∈ front, Text.isBlank character = true)
    (lexes : Lexes more (place.after front) result) : Lexes (front ++ more) place result := by
  induction front generalizing place with
  | nil => exact lexes
  | cons first rest ih =>
      refine .blank (blank first List.mem_cons_self) ?_
      exact ih (fun character member => blank character (List.mem_cons_of_mem first member)) lexes

/-! ## Pieces that are not blank -/

namespace Pattern

theorem comment_head {text : List Char} {cut : Cut} (found : comment text = some cut) :
    text.head? = some '/' := by
  unfold comment at found
  split at found
  · rfl
  · rfl
  · cases found

/-- Where a token starts, there is no comment and no white space. -/
theorem of_token {text : List Char} {kind : TokenKind} {cut : Cut}
    (found : firstMatch text = some (some kind, cut)) :
    comment text = none ∧ ∃ first, text.head? = some first ∧ Text.isBlank first = false := by
  rcases text with _ | ⟨first, rest⟩
  · cases found
  rcases blank : Text.isBlank first with _ | _
  · rcases piece : comment (first :: rest) with _ | other
    · exact ⟨rfl, first, rfl, blank⟩
    · simp [firstMatch, table, piece] at found
  · rw [firstMatch_blank blank] at found
    cases found

/-- A quote at the front of a text starts a string or no piece at all. -/
theorem firstMatch_quote {quote : Char} (isQuote : quote = '"' ∨ quote = '\'') {rest : List Char}
    (missed : string (quote :: rest) = none) : firstMatch (quote :: rest) = none := by
  rcases isQuote with rfl | rfl <;>
    · simp only [firstMatch, table, List.findSome?_cons, missed]
      rfl

theorem firstMatch_star (rest : List Char) :
    firstMatch ('*' :: rest) = some (some .symbol, ⟨['*'], rest⟩) := by
  rfl

theorem firstMatch_slash {rest : List Char} (missed : comment ('/' :: rest) = none) :
    firstMatch ('/' :: rest) = some (some .symbol, ⟨['/'], rest⟩) := by
  simp only [firstMatch, table, List.findSome?_cons, missed]
  rfl

theorem table_steady {text : List Char} {first : Char} (head : text.head? = some first)
    (solid : Text.isBlank first = false) (whole : Steady comment text)
    (closed : Steady string text) : ∀ entry ∈ table, Steady entry.2 text := by
  intro entry member
  simp only [table, List.mem_cons, List.not_mem_nil, or_false] at member
  rcases member with rfl | rfl | rfl | rfl | rfl | rfl
  · exact whole
  · exact blanks_steady solid head
  · exact identifier_steady text
  · exact closed
  · exact number_steady text
  · exact mark_steady text

end Pattern

/-! ## Texts that make tokens -/

/-- The first token of a text that starts with a star is that star. -/
theorem Lexes.star {rest : List Char} {place : Position} {tokens : List Token}
    (lexes : Lexes ('*' :: rest) place (.ok tokens)) :
    ∃ first later, tokens = first :: later ∧ first.isSymbol '*' = true := by
  generalize text : '*' :: rest = front at lexes
  generalize made : Except.ok tokens = result at lexes
  subst text
  have found := Pattern.firstMatch_star rest
  cases lexes with
  | wrong missed => rw [found] at missed; cases missed
  | skip read => rw [found] at read; cases read
  | @token _ _ _ _ result read =>
      rw [found] at read
      cases read
      rcases result with _ | later
      · cases made
      · cases made
        exact ⟨_, later, rfl, rfl⟩

/-- A comment is the same piece in front of a line feed. -/
theorem Pattern.firstMatch_comment {text : List Char} {cut : Cut}
    (piece : comment text = some cut) (found : firstMatch text = some (none, cut))
    (more : List Char) :
    firstMatch (text ++ '\n' :: more) = some (none, cut.extend ('\n' :: more)) := by
  have head := comment_head piece
  have comments : Steady comment text := by
    refine comment_steady fun missed => ?_
    rw [piece] at missed
    cases missed
  have strings : Steady string text := by
    refine string_steady fun _ first same => ?_
    rw [head] at same
    cases same
    decide
  have steady := firstMatch_steady (table_steady head rfl comments strings) more
  rwa [found] at steady

/-- A token is the same piece in front of a line feed, unless it opens a comment with the token
behind it. -/
theorem Lexes.firstMatch_token {text : List Char} {kind : TokenKind} {cut : Cut}
    {place : Position} {others : List Token}
    (found : firstMatch text = some (some kind, cut))
    (behind : Lexes cut.left (place.after cut.taken) (.ok others))
    (apart : ∀ next ∈ others.head?,
      ¬ Peg.OpensComment ⟨kind, String.ofList cut.taken, place⟩ next) (more : List Char) :
    firstMatch (text ++ '\n' :: more) = some (some kind, cut.extend ('\n' :: more)) := by
  obtain ⟨missed, first, head, solid⟩ := Pattern.of_token found
  have comments : Steady comment text := by
    refine Pattern.comment_steady fun _ rest same => ?_
    subst same
    rw [Pattern.firstMatch_slash missed] at found
    cases found
    obtain ⟨star, later, rfl, isStar⟩ := behind.star
    exact apart star rfl ⟨rfl, isStar⟩
  have strings : Steady string text := by
    refine Pattern.string_steady fun missed first same => ?_
    obtain ⟨rest, rfl⟩ := List.head?_eq_some_iff.mp same
    constructor
    · rintro rfl
      rw [Pattern.firstMatch_quote (.inl rfl) missed] at found
      cases found
    · rintro rfl
      rw [Pattern.firstMatch_quote (.inr rfl) missed] at found
      cases found
  have steady := Pattern.firstMatch_steady (Pattern.table_steady head solid comments strings) more
  rwa [found] at steady

/-- A line feed and another text behind a text that makes tokens add what the other text makes. -/
theorem Lexes.join {text more : List Char} {place : Position}
    {result later : Except SyntaxError (List Token)} (lexes : Lexes text place result) :
    ∀ {tokens : List Token}, result = .ok tokens →
      tokens.IsChain (fun first second => ¬ Peg.OpensComment first second) →
      Lexes more ((place.after text).advance '\n') later →
      Lexes (text ++ '\n' :: more) place (later.map (tokens.dropLast ++ ·)) := by
  induction lexes with
  | done =>
      rintro _ ⟨⟩ _ behind
      cases later <;> exact .blank rfl behind
  | wrong => exact nofun
  | @skip text cut place result found _ ih =>
      intro tokens made apart behind
      have whole := (Pattern.firstMatch_divides found).1.whole
      rw [← whole, Position.after_append] at behind
      have rest := ih made apart behind
      rcases Pattern.of_skip found with piece | space
      · exact .skip (Pattern.firstMatch_comment piece found more) rest
      · rw [← whole, List.append_assoc]
        exact .blanks (Pattern.blanks_taken space) rest
  | @token text kind cut place result found inner ih =>
      intro tokens made apart behind
      rcases result with _ | others
      · cases made
      cases made
      have whole := (Pattern.firstMatch_divides found).1.whole
      rw [← whole, Position.after_append] at behind
      have rest := ih rfl apart.tail behind
      have steady := inner.firstMatch_token found (List.isChain_cons.mp apart).1 more
      have total := Lexes.token steady rest
      obtain ⟨front, last, split, _⟩ := inner.exists_ended rfl
      have some : others ≠ [] := by
        rw [split]
        exact List.append_ne_nil_of_right_ne_nil _ (List.cons_ne_nil _ _)
      rw [List.dropLast_cons_of_ne_nil some]
      cases later <;> exact total

end CollectionSchema
