import CollectionSchema.Proofs.ErrorLocation
import CollectionSchema.Proofs.Peg.Moment

/-!
# Sessions that are asked again

A session can be asked to parse any number of times, and each time it goes on from
the cursor and the furthest failure of the last one.  Whatever the tokens are, and
at every moment of every call, both stand at the first end of the input or in front
of it.  So there is always a token at the cursor and at the furthest failure, the
second one is the token that an error names, and what stands behind the first end
never shows.
-/

set_option autoImplicit false

namespace CollectionSchema

open Peg (Run InFront Passes Within declarations)

/-! ## The first end of the input -/

/-- What can be passed are the tokens in front of the first end. -/
theorem Peg.passes_iff_le {tokens : List Token} (ends : ∃ token ∈ tokens, token.isEnd = true)
    {count : Nat} : Passes tokens count ↔ count ≤ tokens.findIdx Token.isEnd := by
  have inside := List.findIdx_lt_length.mpr ends
  constructor
  · intro passes
    by_contra beyond
    have taken : tokens[tokens.findIdx Token.isEnd] ∈ tokens.take count :=
      List.mem_take_iff_getElem.mpr ⟨_, by omega, rfl⟩
    have ended := List.findIdx_getElem (w := inside)
    rw [passes.2 _ taken] at ended
    cases ended
  · intro le
    refine ⟨by omega, fun token member => ?_⟩
    obtain ⟨index, before, rfl⟩ := List.mem_take_iff_getElem.mp member
    exact List.not_of_lt_findIdx (by omega)

theorem Peg.Passes.lt_length {tokens : List Token} {count : Nat} (passes : Passes tokens count)
    (ends : ∃ token ∈ tokens, token.isEnd = true) : count < tokens.length :=
  Nat.lt_of_le_of_lt ((passes_iff_le ends).mp passes) (List.findIdx_lt_length.mpr ends)

theorem exists_end_closed (tokens : List Token) :
    ∃ token ∈ closed tokens, token.isEnd = true := by
  obtain ⟨front, last, same, ended⟩ := closed_ends tokens
  exact ⟨last, by simp [same], ended⟩

/-! ## Where a record points -/

/-- What holds of the places of a record and of all notes holds of the place of the record that
takes them into account. -/
theorem Furthest.recordAll_place {holds : Nat → Prop} {known : Option Furthest}
    {misses : List Miss} (before : ∀ record ∈ known, holds record.position)
    (noted : ∀ miss ∈ misses, holds miss.position) :
    ∀ record ∈ recordAll known misses, holds record.position := by
  rcases known with _ | known
  · intro record found
    rcases misses with _ | ⟨first, rest⟩
    · cases found
    · obtain ⟨other, same, _, miss, member, place⟩ :=
        recordAll_none (List.cons_ne_nil first rest)
      rw [same] at found
      cases found
      exact place ▸ noted miss member
  · intro record found
    obtain ⟨other, same, _, _, place⟩ := recordAll_position misses known
    rw [same] at found
    cases found
    rcases place with place | ⟨miss, member, place⟩
    · exact place ▸ before known rfl
    · exact place ▸ noted miss member

namespace ParseSession

theorem reported_place {holds : Nat → Prop} {furthest : Option Furthest} {position : Nat}
    (here : holds position) (known : ∀ record ∈ furthest, holds record.position) :
    holds (reported furthest position).position := by
  rcases furthest with _ | record
  · exact here
  · rw [reported]
    split
    · exact here
    · exact known record rfl

/-! ## One call -/

/-- A state of a session while it parses.  The last one is the state in which the call leaves it,
and in that state the furthest failure may have given way to a declaration that was expected. -/
inductive Reaches (session : ParseSession) : ParseSession → Prop
  | during {notes : List Miss} {cursor : Nat}
      (moment : Peg.Reaches .program declarations (session.tokens.drop session.position) notes
        cursor) :
      Reaches session ⟨session.tokens, session.position + cursor,
        Furthest.recordAll session.furthest (notes.map (Miss.shift session.position))⟩
  | answered : Reaches session session.parse.2

/-- The cursor and the furthest failure are in front of the end of the input or at it. -/
structure InRange (session : ParseSession) : Prop where
  cursor : Passes session.tokens session.position
  furthest : ∀ record ∈ session.furthest, Passes session.tokens record.position

theorem InRange.ofTokens (tokens : List Token) : (ofTokens tokens).InRange :=
  ⟨.zero _, nofun⟩

theorem InRange.during {session : ParseSession} (range : session.InRange) {notes : List Miss}
    {cursor : Nat}
    (inFront : InFront (session.tokens.drop session.position) notes cursor) :
    InRange ⟨session.tokens, session.position + cursor,
      Furthest.recordAll session.furthest (notes.map (Miss.shift session.position))⟩ := by
  have behind := inFront.behind range.cursor
  exact ⟨behind.cursor, Furthest.recordAll_place range.furthest behind.noted⟩

/-- What a call asks for at its end, the token at the cursor and the one to report, is in range. -/
theorem InRange.asked {session : ParseSession} (range : session.InRange) {misses : List Miss}
    {found : List Declaration} {taken : Nat}
    (run : Run .program declarations (session.tokens.drop session.position) misses
      (some (found, taken))) :
    Passes session.tokens (session.position + taken) ∧
      Passes session.tokens (reported (Furthest.recordAll session.furthest
        (misses.map (Miss.shift session.position))) (session.position + taken)).position := by
  have after := range.during (Peg.Reaches.matched run).inFront
  exact ⟨after.cursor, reported_place after.cursor after.furthest⟩

/-- No moment of a call leads out of the range. -/
theorem InRange.reaches {session state : ParseSession} (range : session.InRange)
    (reaches : session.Reaches state) :
    state.tokens = session.tokens ∧ state.InRange := by
  cases reaches with
  | during moment => exact ⟨rfl, range.during moment.inFront⟩
  | answered =>
      obtain ⟨misses, found, taken, run⟩ := session.exists_run_behind
      have after := range.during (Peg.Reaches.matched run).inFront
      rw [parse_of_run run]
      simp only
      split
      · exact ⟨rfl, after⟩
      · refine ⟨rfl, after.cursor, ?_⟩
        rintro _ ⟨⟩
        exact (range.asked run).2

/-! ## Any number of calls -/

/-- A session after a number of calls. -/
def later (session : ParseSession) : Nat → ParseSession
  | 0 => session
  | calls + 1 => (session.later calls).parse.2

theorem InRange.later {session : ParseSession} (range : session.InRange) (calls : Nat) :
    (session.later calls).tokens = session.tokens ∧ (session.later calls).InRange := by
  induction calls with
  | zero => exact ⟨rfl, range⟩
  | succ calls ih =>
      obtain ⟨same, after⟩ := ih.2.reaches .answered
      exact ⟨same.trans ih.1, after⟩

/-! ## Tokens behind the first end -/

/-- Two sessions that differ only behind the first tokens. -/
structure AgreesUpTo (depth : Nat) (session other : ParseSession) : Prop where
  tokens : other.tokens.take depth = session.tokens.take depth
  position : other.position = session.position
  furthest : other.furthest = session.furthest

/-- Sessions that differ only behind the first end answer alike and still do so afterwards. -/
theorem AgreesUpTo.parse {limit : Nat} {session other : ParseSession}
    (agrees : AgreesUpTo (limit + 1) session other) (range : session.InRange)
    (bound : ∀ count, Passes session.tokens count → count ≤ limit) :
    other.parse.1 = session.parse.1 ∧ AgreesUpTo (limit + 1) session.parse.2 other.parse.2 := by
  obtain ⟨misses, found, taken, run⟩ := session.exists_run_behind
  obtain ⟨cursor, place⟩ := range.asked run
  have start := bound _ range.cursor
  have within : Within (limit + 1 - session.position) misses (some (found, taken)) := by
    refine ⟨fun miss member => ?_, ?_⟩
    · have := bound _ (range.cursor.add (run.passes_misses miss member))
      omega
    · rintro _ _ ⟨⟩
      have := bound _ cursor
      omega
  have again := run.steady within (Peg.drop_of_take agrees.tokens session.position)
  rw [← agrees.position] at again
  have token : ∀ position, Passes session.tokens position →
      other.tokenAt position = session.tokenAt position := by
    intro position passes
    have entries := congrArg (fun list => list[position]?) agrees.tokens
    simp only [List.getElem?_take, if_pos (Nat.lt_succ_of_le (bound position passes))] at entries
    rw [tokenAt, tokenAt, entries]
  rw [parse_of_run run, parse_of_run again]
  simp only [agrees.position, agrees.furthest, token _ cursor, token _ place]
  split
  · exact ⟨rfl, agrees.tokens, rfl, rfl⟩
  · exact ⟨rfl, agrees.tokens, rfl, rfl⟩

/-- Sessions that differ only behind the first end still do so after any number of calls. -/
theorem AgreesUpTo.later {limit : Nat} {session other : ParseSession}
    (agrees : AgreesUpTo (limit + 1) session other) (range : session.InRange)
    (bound : ∀ count, Passes session.tokens count → count ≤ limit) (calls : Nat) :
    AgreesUpTo (limit + 1) (session.later calls) (other.later calls) := by
  induction calls with
  | zero => exact agrees
  | succ calls ih =>
      obtain ⟨same, after⟩ := range.later calls
      exact (ih.parse after (same ▸ bound)).2

/-! ## The error of a call -/

/-- A call that fails has a record of the furthest failure, which points to one of the tokens, and
the error is what the record says about this token. -/
theorem InRange.exists_record {session : ParseSession} (range : session.InRange)
    (ends : ∃ token ∈ session.tokens, token.isEnd = true) {error : SyntaxError}
    (failed : session.parse.1 = .error error) :
    ∃ record token, session.parse.2.furthest = some record ∧
      session.tokens[record.position]? = some token ∧ error = record.toSyntaxError token := by
  obtain ⟨misses, found, taken, run⟩ := session.exists_run_behind
  have inside := (range.asked run).2.lt_length ends
  rw [parse_of_run run] at failed ⊢
  simp only at failed ⊢
  split at failed
  case isTrue => cases failed
  case isFalse more =>
    rw [if_neg more]
    cases failed
    refine ⟨_, _, rfl, List.getElem?_eq_getElem inside, ?_⟩
    rw [tokenAt, List.getElem?_eq_getElem inside, Option.getD_some]

end ParseSession

theorem Furthest.toSyntaxError_message (record : Furthest) (found : Token) :
    (record.toSyntaxError found).message ≠ "unexpected input" := by
  intro same
  have first := congrArg (fun text => text.toList.head?) same
  simp [toSyntaxError, SyntaxError.unexpectedToken] at first

/-- Whatever the tokens are and however often they have been parsed, in every moment of the next
call the cursor and the furthest failure are at the first end of the input or in front of it, and
that end is one of the tokens.  An error is what the furthest failure says about its token, which is
one of the tokens too.  What stands behind the first end has no influence. -/
theorem ParseSession.later_in_range (tokens : List Token) (calls : Nat) :
    let limit := (closed tokens).findIdx Token.isEnd
    let session := (ofTokens tokens).later calls
    limit < (closed tokens).length ∧
      (∀ state, session.Reaches state → state.tokens = closed tokens ∧ state.position ≤ limit ∧
        ∀ record ∈ state.furthest, record.position ≤ limit) ∧
      (∀ error, session.parse.1 = .error error →
        error.message ≠ "unexpected input" ∧
          ∃ record token, session.parse.2.furthest = some record ∧
            (closed tokens)[record.position]? = some token ∧ error = record.toSyntaxError token) ∧
      ∀ others, (closed others).take (limit + 1) = (closed tokens).take (limit + 1) →
        ((ofTokens others).later calls).parse.1 = session.parse.1 := by
  have ends := exists_end_closed tokens
  have bound : ∀ count, Passes (closed tokens) count → count ≤ _ := fun _ =>
    (Peg.passes_iff_le ends).mp
  obtain ⟨still, range⟩ := (InRange.ofTokens tokens).later calls
  have same : ((ofTokens tokens).later calls).tokens = closed tokens := still
  have inside : ∀ state, ((ofTokens tokens).later calls).Reaches state →
      state.tokens = closed tokens ∧ state.InRange := by
    intro state reaches
    obtain ⟨still, after⟩ := range.reaches reaches
    exact ⟨still.trans same, after⟩
  refine ⟨List.findIdx_lt_length.mpr ends, fun state reaches => ?_, fun error failed => ?_,
    fun others agree => ?_⟩
  · obtain ⟨still, after⟩ := inside state reaches
    exact ⟨still, bound _ (still ▸ after.cursor),
      fun record found => bound _ (still ▸ after.furthest record found)⟩
  · obtain ⟨record, token, found, there, rfl⟩ := range.exists_record (same ▸ ends) failed
    exact ⟨record.toSyntaxError_message token, record, token, found, same ▸ there, rfl⟩
  · have start : AgreesUpTo ((closed tokens).findIdx Token.isEnd + 1) (ofTokens tokens)
        (ofTokens others) := ⟨agree, rfl, rfl⟩
    exact ((start.later (.ofTokens tokens) bound calls).parse range (same ▸ bound)).1

/-- The input ends in front of a semicolon.  The second call refuses the end, as the first one did,
and it does so without the semicolon, too. -/
theorem ParseSession.later_in_range_of_early_end :
    let tokens : List Token := [⟨.identifier, "x", ⟨1, 1⟩⟩, Token.endAt ⟨1, 2⟩]
    let longer := tokens ++ [⟨.symbol, ";", ⟨1, 3⟩⟩]
    let session := (ofTokens longer).later 1
    let error : SyntaxError :=
      ⟨.grammar, "expected '(', found end of input", ⟨1, 2⟩, some "function", none⟩
    session.parse.1 = .error error ∧ session.parse.2.position ≤ 1 ∧
      (∃ record token, session.parse.2.furthest = some record ∧
        (closed longer)[record.position]? = some token ∧ error = record.toSyntaxError token) ∧
      ((ofTokens tokens).later 1).parse.1 = .error error := by
  intro tokens longer session error
  have outcome : session.parse.1.map (·.declarations.length) = .error error := by decide +kernel
  rcases failed : session.parse.1 with found | program
  · rw [failed] at outcome
    cases outcome
    obtain ⟨_, range, refused, alike⟩ := later_in_range longer 1
    exact ⟨rfl, (range _ .answered).2.1, (refused error failed).2, (alike tokens rfl).trans failed⟩
  · rw [failed] at outcome
    cases outcome

end CollectionSchema
