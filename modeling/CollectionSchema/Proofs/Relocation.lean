import CollectionSchema.Proofs.Peg.Relocation
import CollectionSchema.Proofs.RepeatedParse
import CollectionSchema.Proofs.Token.Lexing

/-!
# A text further down

A text that starts some lines further down makes the same tokens at places that are
as many lines further down, and its program or its error moves along with them.
That is so for any map of places, and for every call of a session.
-/

set_option autoImplicit false

namespace CollectionSchema

open Peg (declarations)

/-! ## Tokens -/

/-- A text makes the same further down, at places further down. -/
theorem Lexes.down (lines : Nat) {text : List Char} {place : Position}
    {result : Except SyntaxError (List Token)} (lexes : Lexes text place result) :
    Lexes text (place.down lines)
      (relocateResult (Position.down lines) (List.map (Token.relocate (Position.down lines)))
        result) := by
  induction lexes with
  | done => exact .done
  | wrong missed => exact .wrong missed
  | skip found _ ih =>
      refine .skip found ?_
      rw [Position.after_down]
      exact ih
  | @token _ kind cut place result found _ ih =>
      rw [← Position.after_down] at ih
      have moved := Lexes.token found ih
      cases result <;> exact moved

/-! ## Sessions -/

variable (move : Position → Position)

namespace ParseSession

/-- A session with its tokens at other places. -/
def relocate (session : ParseSession) : ParseSession :=
  { session with tokens := session.tokens.map (Token.relocate move) }

@[simp] theorem relocate_tokens (session : ParseSession) :
    (session.relocate move).tokens = session.tokens.map (Token.relocate move) := rfl

@[simp] theorem relocate_position (session : ParseSession) :
    (session.relocate move).position = session.position := rfl

@[simp] theorem relocate_furthest (session : ParseSession) :
    (session.relocate move).furthest = session.furthest := rfl

theorem tokenAt_relocate {session : ParseSession} {position : Nat}
    (inside : position < session.tokens.length) :
    (session.relocate move).tokenAt position = (session.tokenAt position).relocate move := by
  rw [tokenAt, tokenAt, relocate_tokens, List.getElem?_map, List.getElem?_eq_getElem inside]
  rfl

/-- A session with its tokens at other places answers the same at other places, and goes on to the
same state. -/
theorem relocate_parse {session : ParseSession} (range : session.InRange)
    (ends : ∃ token ∈ session.tokens, token.isEnd = true) :
    (session.relocate move).parse =
      (relocateResult move (Program.relocate move) session.parse.1,
        session.parse.2.relocate move) := by
  obtain ⟨misses, found, taken, run⟩ := session.exists_run_behind
  obtain ⟨cursor, place⟩ := range.asked run
  have carries : declarations.Carries move (List.map (Declaration.relocate move)) := ⟨_, rfl, rfl⟩
  have moved : Peg.Run .program declarations
      ((session.relocate move).tokens.drop (session.relocate move).position) misses
      (some (found.map (Declaration.relocate move), taken)) :=
    List.map_drop ▸ run.relocate move carries
  rw [parse_of_run moved, parse_of_run run]
  simp only [relocate_position, relocate_furthest, relocate_tokens,
    tokenAt_relocate move (cursor.lt_length ends),
    tokenAt_relocate move (place.lt_length ends), Token.isEnd_relocate]
  by_cases ended : (session.tokenAt (session.position + taken)).isEnd = true
  · simp only [if_pos ended]
    rfl
  · simp only [if_neg ended]
    rfl

/-- The same holds of every call that comes later. -/
theorem relocate_later {session : ParseSession} (range : session.InRange)
    (ends : ∃ token ∈ session.tokens, token.isEnd = true) (calls : Nat) :
    (session.relocate move).later calls = (session.later calls).relocate move := by
  induction calls with
  | zero => rfl
  | succ calls ih =>
      obtain ⟨same, after⟩ := range.later calls
      rw [later, ih, relocate_parse move after (same ▸ ends), later]

end ParseSession

/-! ## Programs -/

/-- The end of the input that is added stands at the place of the last token, so it moves along. -/
theorem closed_map_relocate {tokens : List Token} (some : tokens ≠ []) :
    closed (tokens.map (Token.relocate move)) = (closed tokens).map (Token.relocate move) := by
  obtain ⟨front, last, rfl⟩ := List.eq_nil_or_concat tokens |>.resolve_left some
  simp only [closed, List.concat_eq_append, List.map_append, List.map_singleton,
    List.getLast?_concat, Token.isEnd_relocate]
  split
  · rw [List.map_append, List.map_singleton]
  · rw [List.map_append, List.map_append, List.map_singleton]
    rfl

theorem closed_relocate {tokens : List Token} (same : closed tokens = tokens) :
    closed (tokens.map (Token.relocate move)) = tokens.map (Token.relocate move) := by
  have some : tokens ≠ [] := by
    rintro rfl
    cases same
  rw [closed_map_relocate move some, same]

/-- A session on tokens at other places. -/
theorem ParseSession.ofTokens_relocate {tokens : List Token} (some : tokens ≠ []) :
    ofTokens (tokens.map (Token.relocate move)) = (ofTokens tokens).relocate move := by
  rw [ofTokens, closed_map_relocate move some]
  rfl

/-- Tokens at other places make the same program or error at other places. -/
theorem parse_relocate {tokens : List Token} (same : closed tokens = tokens) :
    parse (tokens.map (Token.relocate move)) =
      relocateResult move (Program.relocate move) (parse tokens) := by
  have some : tokens ≠ [] := by
    rintro rfl
    cases same
  have moved := ParseSession.relocate_parse move (.ofTokens tokens) (exists_end_closed tokens)
  rw [parse, ParseSession.ofTokens_relocate move some, moved, parse]

end CollectionSchema
