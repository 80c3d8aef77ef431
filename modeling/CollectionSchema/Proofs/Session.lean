import CollectionSchema.Grammar.Session
import CollectionSchema.Proofs.Peg.Reply

/-!
# The result of a session

A session runs the phrase for all declarations on the tokens behind its cursor.  That
run always matches, with an empty list at least.  Whether the session succeeds is
decided by the token behind the declarations that were taken, and the notes of the
run give the error.
-/

set_option autoImplicit false

namespace CollectionSchema

open Peg (Run declarations beforeEnd)

/-! ## Closed lists of tokens -/

/-- Tokens with an end behind them need no other one. -/
theorem closed_of_ended {last : Token} (ended : last.isEnd = true) (front : List Token) :
    closed (front ++ [last]) = front ++ [last] := by
  rw [closed, List.getLast?_concat]
  exact if_pos ended

theorem beforeEnd_append_end {last : Token} (ended : last.isEnd = true) (tokens : List Token) :
    beforeEnd (tokens ++ [last]) = beforeEnd tokens := by
  induction tokens with
  | nil => simp [beforeEnd, ended]
  | cons first rest ih =>
      simp only [beforeEnd, List.cons_append, List.takeWhile_cons] at ih ⊢
      rw [ih]

theorem beforeEnd_closed (tokens : List Token) :
    beforeEnd (closed tokens) = beforeEnd tokens := by
  rcases List.eq_nil_or_concat tokens with rfl | ⟨front, last, rfl⟩
  · rfl
  · simp only [closed, List.concat_eq_append, List.getLast?_concat]
    split
    · rfl
    · exact beforeEnd_append_end rfl _

/-- Tokens in front of others do not change how these are closed. -/
theorem closed_append_of_ne_nil (front : List Token) {other : List Token} (some : other ≠ []) :
    closed (front ++ other) = front ++ closed other := by
  rw [closed, closed, List.getLast?_append_of_ne_nil _ some]
  split
  case h_1 none => exact absurd (List.getLast?_eq_none_iff.mp none) some
  case h_2 =>
    split
    · rfl
    · rw [List.append_assoc]

/-- All tokens of a closed list but its ends stand in the list that was closed. -/
theorem getElem?_of_closed {tokens : List Token} {place : Nat} {token : Token}
    (here : (closed tokens)[place]? = some token) (more : token.isEnd = false) :
    tokens[place]? = some token := by
  obtain ⟨tail, same, ends⟩ :
      ∃ tail, closed tokens = tokens ++ tail ∧ ∀ last ∈ tail, last.isEnd = true := by
    rw [closed]
    split
    case h_1 none =>
      rw [List.getLast?_eq_none_iff.mp none]
      exact ⟨_, rfl, by simp [Token.endAt, Token.isEnd]⟩
    case h_2 last _ =>
      split
      · exact ⟨[], (List.append_nil _).symm, by simp⟩
      · exact ⟨_, rfl, by simp [Token.endAt, Token.isEnd]⟩
  rw [same] at here
  rcases Nat.lt_or_ge place tokens.length with inside | behind
  · rwa [List.getElem?_append_left inside] at here
  · rw [List.getElem?_append_right behind] at here
    rw [ends token (List.mem_of_getElem? here)] at more
    cases more

namespace ParseSession

/-- The run of all declarations on the tokens behind the cursor of a session. -/
theorem exists_run_behind (session : ParseSession) :
    ∃ misses found taken, Run .program declarations (session.tokens.drop session.position) misses
      (some (found, taken)) := by
  have run := declarations.run .program rfl (session.tokens.drop session.position)
  obtain ⟨⟨found, taken⟩, matched⟩ := Option.isSome_iff_exists.mp
    (Rule.many_isSome Grammar.declaration (session.tokens.drop session.position))
  exact ⟨_, found, taken, matched ▸ run⟩

/-- What a session answers, by the run of all declarations behind its cursor. -/
theorem parse_of_run {session : ParseSession} {misses : List Miss} {found : List Declaration}
    {taken : Nat} (run : Run .program declarations (session.tokens.drop session.position) misses
      (some (found, taken))) :
    session.parse =
      let position := session.position + taken
      let furthest :=
        Furthest.recordAll session.furthest (misses.map (Miss.shift session.position))
      let record := reported furthest position
      if (session.tokenAt position).isEnd then
        (.ok ⟨found⟩, ⟨session.tokens, position, furthest⟩)
      else
        (.error (record.toSyntaxError (session.tokenAt record.position)),
          ⟨session.tokens, position, some record⟩) := by
  have reply : Rule.many Grammar.declaration (session.tokens.drop session.position) =
      ⟨misses, some (found, taken)⟩ := run.reply
  simp only [parse, reply, Option.getD_some]

variable {tokens : List Token} {misses : List Miss} {found : List Declaration} {taken : Nat}

/-- The run of all declarations on the tokens of a new session. -/
theorem exists_run (tokens : List Token) :
    ∃ misses found taken,
      Run .program declarations (closed tokens) misses (some (found, taken)) :=
  (ofTokens tokens).exists_run_behind

/-- What a new session answers, by the run of all declarations on its tokens. -/
theorem parse_ofTokens
    (run : Run .program declarations (closed tokens) misses (some (found, taken))) :
    (ofTokens tokens).parse =
      let furthest := Furthest.recordAll none misses
      let record := reported furthest taken
      if ((ofTokens tokens).tokenAt taken).isEnd then
        (.ok ⟨found⟩, ⟨closed tokens, taken, furthest⟩)
      else
        (.error (record.toSyntaxError ((ofTokens tokens).tokenAt record.position)),
          ⟨closed tokens, taken, some record⟩) := by
  have start : Run .program declarations
      ((ofTokens tokens).tokens.drop (ofTokens tokens).position) misses (some (found, taken)) := run
  rw [parse_of_run start]
  simp only [ofTokens, Nat.zero_add, Miss.map_shift_zero]
  rfl

theorem parse_of_ended
    (run : Run .program declarations (closed tokens) misses (some (found, taken)))
    (ended : ((ofTokens tokens).tokenAt taken).isEnd = true) :
    CollectionSchema.parse tokens = .ok ⟨found⟩ := by
  simp only [CollectionSchema.parse, parse_ofTokens run, if_pos ended]

theorem parse_of_not_ended
    (run : Run .program declarations (closed tokens) misses (some (found, taken)))
    (more : ((ofTokens tokens).tokenAt taken).isEnd = false) :
    CollectionSchema.parse tokens =
      let record := reported (Furthest.recordAll none misses) taken
      .error (record.toSyntaxError ((ofTokens tokens).tokenAt record.position)) := by
  simp only [CollectionSchema.parse, parse_ofTokens run, more, Bool.false_eq_true, if_false]

end ParseSession

end CollectionSchema
