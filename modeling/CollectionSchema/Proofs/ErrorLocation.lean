import CollectionSchema.Proofs.FurthestFailure
import CollectionSchema.Proofs.Peg.Offer
import CollectionSchema.Proofs.Session

/-!
# Where an error is

The error of a parse is about one token, which the record of the furthest failure
points to.  The tokens in front of it can be completed to a program, so the error
is not reported too late.  And every list of tokens that starts with these and that
token fails with the very same error, so it is not reported too early, and what
stands behind it does not matter.
-/

set_option autoImplicit false

namespace CollectionSchema

open Peg (Run Phrase Passes Stuck Within Completes declarations redirect)

/-! ## The furthest note -/

namespace Furthest

theorem record_position (known : Furthest) (miss : Miss) :
    ∃ record, Furthest.record (some known) miss = some record ∧
      record.position = max known.position miss.position := by
  rw [Furthest.record]
  split
  case isTrue before => exact ⟨known, rfl, by omega⟩
  case isFalse =>
    split
    case isTrue same =>
      refine ⟨known.merge miss, rfl, ?_⟩
      show known.position = _
      omega
    case isFalse behind =>
      refine ⟨ofMiss miss, rfl, ?_⟩
      show miss.position = _
      omega

/-- Going over some notes, a record moves to the furthest place that any of them points to. -/
theorem recordAll_position (misses : List Miss) (known : Furthest) :
    ∃ record, recordAll (some known) misses = some record ∧
      known.position ≤ record.position ∧ (∀ miss ∈ misses, miss.position ≤ record.position) ∧
      (record.position = known.position ∨ ∃ miss ∈ misses, miss.position = record.position) := by
  induction misses generalizing known with
  | nil => exact ⟨known, rfl, Nat.le_refl _, List.forall_mem_nil _, .inl rfl⟩
  | cons first rest ih =>
      obtain ⟨next, step, place⟩ := record_position known first
      obtain ⟨record, all, le, bound, there⟩ := ih next
      refine ⟨record, by rw [recordAll, List.foldl_cons, step]; exact all, by omega, ?_, ?_⟩
      · intro miss member
        rcases List.mem_cons.mp member with rfl | member
        · omega
        · exact bound miss member
      · rcases there with same | ⟨miss, member, same⟩
        · rcases Nat.le_total known.position first.position with le | le
          · exact .inr ⟨first, List.mem_cons_self, by omega⟩
          · exact .inl (by omega)
        · exact .inr ⟨miss, List.mem_cons_of_mem first member, same⟩

/-- The record of some notes is about the furthest place that any of them points to. -/
theorem recordAll_none {misses : List Miss} (noted : misses ≠ []) :
    ∃ record, recordAll none misses = some record ∧
      (∀ miss ∈ misses, miss.position ≤ record.position) ∧
      ∃ miss ∈ misses, miss.position = record.position := by
  obtain ⟨first, rest, rfl⟩ := List.exists_cons_of_ne_nil noted
  obtain ⟨record, all, summary⟩ := exists_summary first rest
  exact ⟨record, all, summary.le, summary.there⟩

end Furthest

/-! ## A repetition notes why it ended -/

namespace Peg

variable {α : Type}

/-- Whether a phrase is a repetition. -/
def Phrase.repeats : {α : Type} → Phrase α → Bool
  | _, .many _ => true
  | _, _ => false

theorem Run.noted_end {name : RuleName} {phrase : Phrase α} {tokens : List Token}
    {misses : List Miss} {found : Option (α × Nat)} (run : Run name phrase tokens misses found)
    (repeats : phrase.repeats = true) :
    ∀ {value : α} {taken : Nat}, found = some (value, taken) →
      ∃ miss ∈ misses, taken ≤ miss.position := by
  induction run with
  | manyEnd inner _ =>
      intro _ _ matched
      cases matched
      obtain ⟨miss, member⟩ := List.exists_mem_of_ne_nil _ (inner.noted rfl)
      exact ⟨miss, member, Nat.zero_le _⟩
  | many _ _ _ _ ih =>
      intro _ _ matched
      cases matched
      obtain ⟨miss, member, le⟩ := ih rfl rfl
      exact ⟨_, List.mem_append_right _ (List.mem_map_of_mem member), Nat.add_le_add_left le _⟩
  | _ => cases repeats

end Peg

/-! ## Lists of tokens that start alike -/

theorem closed_eq_append (tokens : List Token) : ∃ tail, closed tokens = tokens ++ tail := by
  rcases List.eq_nil_or_concat tokens with rfl | ⟨front, last, rfl⟩
  · exact ⟨_, rfl⟩
  · simp only [closed, List.concat_eq_append, List.getLast?_concat]
    split
    · exact ⟨[], (List.append_nil _).symm⟩
    · exact ⟨_, rfl⟩

theorem closed_ends (tokens : List Token) :
    ∃ front last, closed tokens = front ++ [last] ∧ last.isEnd = true := by
  rcases List.eq_nil_or_concat tokens with rfl | ⟨front, last, rfl⟩
  · exact ⟨[], _, rfl, rfl⟩
  · simp only [closed, List.concat_eq_append, List.getLast?_concat]
    split
    case isTrue ended => exact ⟨front, last, rfl, ended⟩
    case isFalse => exact ⟨front ++ [last], _, rfl, rfl⟩

/-- Tokens among which the input does not end get an end behind them. -/
theorem closed_of_proper {tokens : List Token} (proper : ∀ token ∈ tokens, token.isEnd = false) :
    ∃ last, closed tokens = tokens ++ [last] ∧ last.isEnd = true := by
  rcases List.eq_nil_or_concat tokens with rfl | ⟨front, last, rfl⟩
  · exact ⟨_, rfl, rfl⟩
  · have open_ : last.isEnd = false := proper last (by simp)
    simp only [closed, List.concat_eq_append, List.getLast?_concat, open_]
    exact ⟨_, rfl, rfl⟩

/-- A closed list of tokens has a token behind all that can be passed. -/
theorem lt_length_closed {tokens : List Token} {count : Nat}
    (passes : Passes (closed tokens) count) : count < (closed tokens).length := by
  obtain ⟨front, last, same, ended⟩ := closed_ends tokens
  refine Nat.lt_of_le_of_ne passes.1 fun all => ?_
  have proper := passes.2 last (by rw [all, List.take_length, same]; simp)
  rw [ended] at proper
  cases proper

/-! ## The error of a session -/

namespace ParseSession

variable {tokens : List Token} {misses : List Miss} {found : List Declaration} {taken : Nat}

/-- The record that a failed session reports is about the furthest place that was noted. -/
theorem exists_reported
    (run : Run .program declarations (closed tokens) misses (some (found, taken))) :
    ∃ place, (reported (Furthest.recordAll none misses) taken).position = place ∧
      Stuck place misses (some (found, taken)) := by
  obtain ⟨last, member, behind⟩ := run.noted_end rfl rfl
  obtain ⟨record, all, bound, there⟩ :=
    Furthest.recordAll_none (List.ne_nil_of_mem member)
  have le := Nat.le_trans behind (bound last member)
  refine ⟨record.position, ?_, bound, by rintro _ _ ⟨⟩; exact le, there⟩
  rw [all, reported]
  split
  case isTrue ge => exact Nat.le_antisymm le ge
  case isFalse => rfl

theorem tokenAt_of_take {others : List Token} {place position : Nat}
    (same : (closed others).take (place + 1) = (closed tokens).take (place + 1))
    (le : position ≤ place) :
    (ofTokens others).tokenAt position = (ofTokens tokens).tokenAt position := by
  have entries := congrArg (fun list => list[position]?) same
  simp only [List.getElem?_take, if_pos (Nat.lt_succ_of_le le)] at entries
  simp only [tokenAt, ofTokens, entries]

/-- A list of tokens that starts like another one, up to and with the token where that one is stuck,
fails alike. -/
theorem parse_of_take {others : List Token} {place : Nat}
    (run : Run .program declarations (closed tokens) misses (some (found, taken)))
    (more : ((ofTokens tokens).tokenAt taken).isEnd = false)
    (position : (reported (Furthest.recordAll none misses) taken).position = place)
    (stuck : Stuck place misses (some (found, taken)))
    (same : (closed others).take (place + 1) = (closed tokens).take (place + 1)) :
    CollectionSchema.parse others = CollectionSchema.parse tokens := by
  have within : Within (place + 1) misses (some (found, taken)) :=
    ⟨fun miss member => Nat.lt_succ_of_le (stuck.noted miss member),
      fun value count matched => Nat.le_succ_of_le (stuck.taken value count matched)⟩
  have other := run.steady within same
  have still : ((ofTokens others).tokenAt taken).isEnd = false := by
    rw [tokenAt_of_take same (stuck.taken _ _ rfl), more]
  rw [parse_of_not_ended run more, parse_of_not_ended other still]
  simp only [position, tokenAt_of_take same (Nat.le_refl place)]

/-- A completion of declarations makes a program of the tokens in front of the place. -/
theorem exists_program_of_completes {place : Nat} {words : List Token}
    (completes : Completes .program declarations (closed tokens) place words)
    (passes : Passes (closed tokens) place) :
    ∃ program, CollectionSchema.parse ((closed tokens).take place ++ words) = .ok program := by
  have length : ((closed tokens).take place).length = place := List.length_take_of_le passes.1
  obtain ⟨_, _, alone⟩ := completes [] ⟨rfl, rfl⟩
  rw [List.append_nil] at alone
  have proper : ∀ token ∈ (closed tokens).take place ++ words, token.isEnd = false := by
    intro token member
    refine (alone.passes rfl).2 token ?_
    rwa [redirect, List.take_of_length_le (Nat.le_of_eq (by rw [List.length_append, length]))]
  obtain ⟨last, same, ended⟩ := closed_of_proper proper
  have closes : declarations.Closes (some last) := by
    have kind : last.kind = .endOfInput := by simpa [Token.isEnd] using ended
    simp [declarations, Phrase.Closes, Phrase.forecast, Peg.Nonterminal.follows,
      Peg.Nonterminal.starts, Token.isSymbol, kind]
  obtain ⟨_, program, whole⟩ := completes [last] closes
  rw [redirect, ← List.append_assoc, ← same] at whole
  refine ⟨⟨program⟩, parse_of_ended whole ?_⟩
  simp only [tokenAt, ofTokens, same]
  rw [List.getElem?_append_right (by simp [length])]
  simp [length, ended]

/-- The tokens in front of the place where all declarations are stuck can be completed. -/
theorem exists_program {place : Nat}
    (run : Run .program declarations (closed tokens) misses (some (found, taken)))
    (stuck : Stuck place misses (some (found, taken))) :
    ∃ rest program,
      CollectionSchema.parse ((closed tokens).take place ++ rest) = .ok program := by
  obtain ⟨words, completes⟩ := run.complete rfl trivial stuck
  exact ⟨words, exists_program_of_completes completes (stuck.passes run)⟩

end ParseSession

/-- The error of a failed parse is about the token that its record points to.  The tokens in front
of that token can be completed to a program, and with that token in place nothing behind it changes
the error. -/
theorem parse_error_location {tokens : List Token} {error : SyntaxError} {after : ParseSession}
    (failed : (ParseSession.ofTokens tokens).parse = (.error error, after)) :
    ∃ record token, after.furthest = some record ∧
      (closed tokens)[record.position]? = some token ∧ error = record.toSyntaxError token ∧
      (∃ rest program, parse ((closed tokens).take record.position ++ rest) = .ok program) ∧
      ∀ rest, parse ((closed tokens).take (record.position + 1) ++ rest) = .error error := by
  obtain ⟨misses, found, taken, run⟩ := ParseSession.exists_run tokens
  obtain ⟨place, position, stuck⟩ := ParseSession.exists_reported run
  have result : parse tokens = .error error := congrArg Prod.fst failed
  rcases more : ((ParseSession.ofTokens tokens).tokenAt taken).isEnd with _ | _
  case true =>
    rw [ParseSession.parse_of_ended run more] at result
    cases result
  have inside := lt_length_closed (stuck.passes run)
  rw [ParseSession.parse_ofTokens run] at failed
  simp only [more, Bool.false_eq_true, if_false, position, Prod.mk.injEq, Except.error.injEq]
    at failed
  obtain ⟨reported, rfl⟩ := failed
  refine ⟨_, (closed tokens)[place], rfl, ?_, ?_, ?_, fun rest => ?_⟩
  · rw [position, List.getElem?_eq_getElem inside]
  · rw [← reported, ParseSession.tokenAt, ParseSession.ofTokens, List.getElem?_eq_getElem inside,
      Option.getD_some]
  · rw [position]
    exact ParseSession.exists_program run stuck
  · rw [← result, position]
    obtain ⟨tail, same⟩ := closed_eq_append ((closed tokens).take (place + 1) ++ rest)
    refine ParseSession.parse_of_take run more position stuck ?_
    rw [same, List.append_assoc, List.take_append_of_le_length
      (Nat.le_of_eq (List.length_take_of_le inside).symm), List.take_take, Nat.min_self]

/-- A collection whose name is followed by a semicolon fails at the semicolon. -/
theorem parse_error_location_of_missing_brace :
    let tokens : List Token := [⟨.identifier, "collection", ⟨1, 1⟩⟩, ⟨.identifier, "A", ⟨1, 12⟩⟩,
      ⟨.symbol, ";", ⟨1, 13⟩⟩]
    let error : SyntaxError :=
      ⟨.grammar, "expected '\x7b', found ';'", ⟨1, 13⟩, some "collection", none⟩
    ∃ record token, (ParseSession.ofTokens tokens).parse.2.furthest = some record ∧
      (closed tokens)[record.position]? = some token ∧ error = record.toSyntaxError token ∧
      (∃ rest program, parse ((closed tokens).take record.position ++ rest) = .ok program) ∧
      ∀ rest, parse ((closed tokens).take (record.position + 1) ++ rest) = .error error :=
  parse_error_location rfl

end CollectionSchema
