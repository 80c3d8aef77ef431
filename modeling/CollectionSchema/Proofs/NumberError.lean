import CollectionSchema.Proofs.Concatenation
import CollectionSchema.Proofs.Peg.Numeral
import CollectionSchema.Proofs.SettledSession

/-!
# Errors about numbers

A failed parse reports a literal error in one case only: the error is about a number
token whose text is no integer in 64 bits, and an integer was wanted there.  What is
meant by the second part can be tried out: with the number zero in the place of that
token, the parse succeeds or fails further on.  Every other error of a parse is a
grammar error.
-/

set_option autoImplicit false

namespace CollectionSchema

open Peg (Run Stuck Within Halts NumberAt Phrase Nonterminal declarations)

/-- A number token that writes zero, in the place of another token. -/
def Token.zero (token : Token) : Token := ⟨.number, "0", token.position⟩

theorem Token.zero_not_isUnusable (token : Token) : ¬ token.zero.IsUnusable := by
  rintro ⟨_, unread⟩
  obtain ⟨value, read⟩ := Peg.Terminal.number.read_sample
  have written : Text.integer64? token.zero.lexeme.toList = some value := by
    simpa [Peg.Terminal.read, Peg.Terminal.sample, zero] using read
  rw [written] at unread
  cases unread

/-- How many tokens lie before the one that the error of a call is about; a call that succeeds has
none. -/
def ParseSession.placeOf : Except SyntaxError Program × ParseSession → Option Nat
  | (.ok _, _) => none
  | (.error _, after) => after.furthest.map Furthest.position

/-- How many tokens lie before the one that the error of a parse is about. -/
def failurePlace (tokens : List Token) : Option Nat :=
  ParseSession.placeOf (ParseSession.ofTokens tokens).parse

/-! ## Which notes make a record literal -/

namespace Furthest

/-- A record is literal exactly if one of the notes that it sums up is. -/
theorem recordAll_literal {misses : List Miss} {record : Furthest}
    (all : recordAll none misses = some record) :
    record.literal = true ↔
      ∃ miss ∈ misses, miss.position = record.position ∧ miss.literal = true := by
  simp [(summarizes_of_recordAll all).literal, pointingTo]

end Furthest

/-! ## Numbers where only declarations can stand -/

namespace Peg

/-- Where a declaration is wanted, a number is not asked for its value. -/
theorem Run.declarations_of_number {tokens : List Token} {misses : List Miss}
    {found : List Declaration} {taken : Nat} {token : Token}
    (run : Run .program declarations tokens misses (some (found, taken)))
    (here : token ∈ tokens.head?) (kind : token.kind = .number) :
    ∀ miss ∈ misses, miss.literal = false := by
  -- The run is compared with one on a zero, which cannot be refused for its text.
  obtain ⟨rest, rfl⟩ := List.head?_eq_some_iff.mp here
  let others := token.zero :: rest
  have other := declarations.run .program rfl others
  have empty : declarations.forecast others.head? = .empty := by
    simp [declarations, Phrase.forecast, Nonterminal.starts, others, Token.zero, Token.isSymbol]
  have clear : declarations.forecast others.head? ≠ .unclear := by
    simp [empty]
  obtain ⟨value, matched⟩ := empty ▸ other.forecast
  have noted := other.noted_here clear
  have plain : ∀ miss ∈ (declarations.rule .program others).misses, miss.literal = false := by
    intro miss member
    refine Bool.eq_false_iff.mpr fun literal => ?_
    obtain ⟨first, there, unusable⟩ := other.literal_at miss member literal
    rw [noted miss member] at there
    cases there
    exact token.zero_not_isUnusable unusable
  rw [matched] at other
  have halts : Halts 0 (declarations.rule .program others).misses (some (value, 0)) :=
    ⟨fun miss member => Nat.le_of_eq (noted miss member),
      by rintro _ _ ⟨⟩; exact Nat.le_refl 0, fun miss member _ => plain miss member⟩
  have numbers : NumberAt 0 others (token :: rest) :=
    ⟨rfl, ⟨token.zero, rfl, rfl⟩, token, rfl, kind⟩
  have again := other.steady_of_number halts numbers
  rw [(run.unique again).1]
  exact plain

/-- What is noted about the token behind all declarations asks for no integer. -/
theorem Run.plain_behind_declarations {tokens : List Token} {misses : List Miss}
    {found : List Declaration} {taken : Nat}
    (run : Run .program declarations tokens misses (some (found, taken))) :
    ∀ miss ∈ misses, miss.position = taken → miss.literal = false := by
  obtain ⟨_, again, _, behind⟩ := run.declarations_end
  have length : (tokens.take taken).length = taken :=
    List.length_take_of_le (run.passes rfl).1
  have parts : Run .program declarations (tokens.take taken ++ tokens.drop taken) misses
      (some (found, (tokens.take taken).length)) := by
    rwa [List.take_append_drop, length]
  obtain ⟨front, before, whole⟩ := Run.declarations_append parts behind
  rw [(parts.unique whole).1]
  intro miss member place
  refine Bool.eq_false_iff.mpr fun literal => ?_
  rcases List.mem_append.mp member with member | member
  · have := before miss member
    omega
  · obtain ⟨noted, inside, rfl⟩ := List.mem_map.mp member
    have here : noted.position = 0 := by
      rw [Miss.shift_position] at place
      omega
    obtain ⟨token, there, unusable⟩ := behind.literal_at noted inside literal
    rw [here, ← List.head?_eq_getElem?] at there
    have plain := behind.declarations_of_number there unusable.1 noted inside
    exact Bool.eq_false_iff.mp plain literal

end Peg

/-! ## Sessions with another number in the place of the error -/

/-- A token in front of the end of the input is replaced by a zero in the closed list as well. -/
theorem closed_set_zero {tokens : List Token} {place : Nat} {token : Token}
    (here : tokens[place]? = some token) (more : token.isEnd = false) :
    closed (tokens.set place token.zero) = (closed tokens).set place token.zero := by
  rcases List.eq_nil_or_concat tokens with rfl | ⟨front, last, rfl⟩
  · cases here
  rw [List.concat_eq_append] at here ⊢
  rcases Nat.lt_or_ge place front.length with inside | behind
  · rw [List.set_append_left _ _ inside, closed, closed, List.getLast?_concat,
      List.getLast?_concat]
    simp only
    split
    · rw [List.set_append_left _ _ inside]
    · rw [List.append_assoc, List.append_assoc, List.set_append_left _ _ inside]
  · have only : place = front.length := by
      have := (List.getElem?_eq_some_iff.mp here).1
      simp only [List.length_append, List.length_singleton] at this
      omega
    subst only
    rw [List.getElem?_concat_length] at here
    obtain rfl := Option.some.inj here
    have proper : last.zero.isEnd = false := rfl
    rw [List.set_append_right _ _ (Nat.le_refl _), Nat.sub_self, List.set_cons_zero]
    simp only [closed, List.getLast?_concat, more, proper, Bool.false_eq_true, if_false]
    rw [List.append_assoc, List.append_assoc, List.set_append_right _ _ (Nat.le_refl _),
      Nat.sub_self]
    rfl

/-- A zero in the place of a number token that cannot be used is a number token that can. -/
theorem numberAt_zero {tokens : List Token} {place : Nat} {token : Token}
    (here : (closed tokens)[place]? = some token) (unusable : token.IsUnusable) :
    NumberAt place (closed tokens) (closed (tokens.set place token.zero)) ∧
      ∀ other ∈ (closed (tokens.set place token.zero))[place]?, ¬ other.IsUnusable := by
  have more : token.isEnd = false := by simp [Token.isEnd, unusable.1]
  have inside := (List.getElem?_eq_some_iff.mp here).1
  rw [closed_set_zero (getElem?_of_closed here more) more]
  have zero : ((closed tokens).set place token.zero)[place]? = some token.zero :=
    List.getElem?_set_self inside
  refine ⟨⟨List.take_set_of_le (Nat.le_refl place), ⟨token, here, unusable.1⟩,
    token.zero, zero, rfl⟩, ?_⟩
  rw [zero]
  rintro _ ⟨⟩
  exact token.zero_not_isUnusable

namespace ParseSession

variable {tokens others : List Token} {misses : List Miss} {found : List Declaration}
  {taken place : Nat}

/-- A new session fails at the place that is reported. -/
theorem failurePlace_of_run
    (run : Run .program declarations (closed tokens) misses (some (found, taken)))
    (more : ((ofTokens tokens).tokenAt taken).isEnd = false) :
    failurePlace tokens = some (reported (Furthest.recordAll none misses) taken).position := by
  rw [failurePlace, parse_ofTokens run]
  simp only [more, Bool.false_eq_true, if_false, placeOf, Option.map_some]

/-- A session that fails at a number token, where it asks for no integer, fails there with every
other number token. -/
theorem failurePlace_of_number
    (run : Run .program declarations (closed tokens) misses (some (found, taken)))
    (more : ((ofTokens tokens).tokenAt taken).isEnd = false)
    (position : (reported (Furthest.recordAll none misses) taken).position = place)
    (halts : Halts place misses (some (found, taken)))
    (numbers : NumberAt place (closed tokens) (closed others)) :
    failurePlace others = some place := by
  have again := run.steady_of_number halts numbers
  rw [failurePlace_of_run again ?_, position]
  rw [tokenAt, ofTokens] at more ⊢
  rcases Nat.lt_or_eq_of_le (halts.taken _ _ rfl) with before | rfl
  · have entries := congrArg (fun list => list[taken]?) numbers.same
    simp only [List.getElem?_take, if_pos before] at entries
    rwa [entries]
  · obtain ⟨token, there, kind⟩ := numbers.second
    rw [Option.mem_def.mp there, Option.getD_some, Token.isEnd, kind]
    rfl

/-- The record that is reported is literal exactly if a note at its place is. -/
theorem reported_literal
    (run : Run .program declarations (closed tokens) misses (some (found, taken)))
    (position : (reported (Furthest.recordAll none misses) taken).position = place) :
    (reported (Furthest.recordAll none misses) taken).literal = true ↔
      ∃ miss ∈ misses, miss.position = place ∧ miss.literal = true := by
  obtain ⟨last, member, _⟩ := run.noted_end rfl rfl
  obtain ⟨known, all, _⟩ := Furthest.recordAll_none (List.ne_nil_of_mem member)
  rw [all] at position ⊢
  rcases Nat.lt_or_ge taken known.position with further | le
  · rw [reported_of_lt further] at position ⊢
    rw [Furthest.recordAll_literal all, position]
  · rw [reported_of_le le] at position ⊢
    obtain rfl : taken = place := position
    refine iff_of_false Bool.false_ne_true ?_
    rintro ⟨miss, noted, here, literal⟩
    rw [run.plain_behind_declarations miss noted here] at literal
    cases literal

/-- A failed session has a record that points to one of the tokens, and the error is what the record
says about this token. -/
theorem exists_record_of_failed {error : SyntaxError} {after : ParseSession}
    (failed : (ofTokens tokens).parse = (.error error, after)) :
    ∃ record token, after.furthest = some record ∧
      (closed tokens)[record.position]? = some token ∧ error = record.toSyntaxError token := by
  have record := (InRange.ofTokens tokens).exists_record (exists_end_closed tokens)
    (congrArg Prod.fst failed)
  rwa [failed] at record

/-- The record of a failed session is the one that is reported. -/
theorem furthest_of_failed {error : SyntaxError} {after : ParseSession}
    (run : Run .program declarations (closed tokens) misses (some (found, taken)))
    (failed : (ofTokens tokens).parse = (.error error, after)) :
    ((ofTokens tokens).tokenAt taken).isEnd = false ∧
      after.furthest = some (reported (Furthest.recordAll none misses) taken) := by
  rw [parse_ofTokens run] at failed
  simp only at failed
  split at failed
  case isTrue => cases failed
  case isFalse more =>
    obtain ⟨_, rfl⟩ := Prod.mk.inj failed
    exact ⟨Bool.eq_false_iff.mpr more, rfl⟩

/-- The place where a new session fails is the place of the record that is reported. -/
theorem run_of_failurePlace (failed : failurePlace tokens = some place) :
    ∃ misses found taken, Run .program declarations (closed tokens) misses (some (found, taken)) ∧
      ((ofTokens tokens).tokenAt taken).isEnd = false ∧
      (reported (Furthest.recordAll none misses) taken).position = place ∧
      Stuck place misses (some (found, taken)) := by
  obtain ⟨misses, found, taken, run⟩ := exists_run tokens
  rcases outcome : (ofTokens tokens).parse with ⟨_ | _, after⟩
  case ok =>
    rw [failurePlace, outcome] at failed
    cases failed
  case error =>
    obtain ⟨more, known⟩ := furthest_of_failed run outcome
    rw [failurePlace_of_run run more] at failed
    obtain ⟨place, rfl, stuck⟩ := exists_reported run
    obtain rfl := Option.some.inj failed
    exact ⟨misses, found, taken, run, more, rfl, stuck⟩

/-- A run that is stuck at a place, where it asks for no integer, halts there. -/
theorem halts_of_plain (stuck : Stuck place misses (some (found, taken)))
    (plain : ¬ ∃ miss ∈ misses, miss.position = place ∧ miss.literal = true) :
    Halts place misses (some (found, taken)) :=
  ⟨stuck.noted, stuck.taken, fun miss member here =>
    Bool.eq_false_iff.mpr fun literal => plain ⟨miss, member, here, literal⟩⟩

/-- Where an integer was wanted, a list of tokens that has a usable number there fails further on or
not at all. -/
theorem further_of_literal
    (run : Run .program declarations (closed tokens) misses (some (found, taken)))
    (position : (reported (Furthest.recordAll none misses) taken).position = place)
    (literal : ∃ miss ∈ misses, miss.position = place ∧ miss.literal = true)
    (numbers : NumberAt place (closed tokens) (closed others))
    (usable : ∀ token ∈ (closed others)[place]?, ¬ token.IsUnusable) :
    ∀ other ∈ failurePlace others, place < other := by
  intro other failed
  obtain ⟨later, declared, count, again, _, there, stuck⟩ := run_of_failurePlace failed
  by_contra notFurther
  rcases Nat.lt_or_eq_of_le (Nat.le_of_not_lt notFurther) with before | rfl
  · -- The token at the place was not looked at, so both lists fail in front of it.
    have within : Within (other + 1) later (some (declared, count)) :=
      ⟨fun miss member => Nat.lt_succ_of_le (stuck.noted miss member),
        fun value count matched => Nat.le_succ_of_le (stuck.taken value count matched)⟩
    have same := Peg.take_of_take before numbers.same
    obtain ⟨rfl, matched⟩ := run.unique (again.steady within same.symm)
    cases matched
    omega
  · have plain : ¬ ∃ miss ∈ later, miss.position = other ∧ miss.literal = true := by
      rintro ⟨miss, member, here, refused⟩
      obtain ⟨token, found, unusable⟩ := again.literal_at miss member refused
      exact usable token (here ▸ found) unusable
    obtain ⟨rfl, _⟩ := run.unique
      (again.steady_of_number (halts_of_plain stuck plain) numbers.symm)
    exact plain literal

end ParseSession

theorem Furthest.toSyntaxError_code_literal (record : Furthest) (found : Token) :
    (record.toSyntaxError found).code = .literal ↔ record.literal = true := by
  rw [toSyntaxError_code]
  split
  case isTrue literal => simp [literal]
  case isFalse plain => simp [plain]

open ParseSession in
/-- The error of a failed parse is a literal error exactly if it is about a number token whose text
is no integer in 64 bits and an integer would have been accepted there: with a zero in the place of
that token, the parse succeeds or fails further on.  Every other error is a grammar error. -/
theorem parse_error_code {tokens : List Token} {error : SyntaxError} {after : ParseSession}
    (failed : (ofTokens tokens).parse = (.error error, after)) :
    ∃ record token, after.furthest = some record ∧
      (closed tokens)[record.position]? = some token ∧ error = record.toSyntaxError token ∧
      (error.code = .literal ↔ token.IsUnusable ∧
        ∀ place ∈ failurePlace (tokens.set record.position token.zero), record.position < place) ∧
      (error.code ≠ .literal → error.code = .grammar) := by
  obtain ⟨record, token, known, here, rfl⟩ := exists_record_of_failed failed
  refine ⟨record, token, known, here, rfl, ?_, ?_⟩
  · obtain ⟨misses, found, taken, run⟩ := exists_run tokens
    obtain ⟨more, reports⟩ := furthest_of_failed run failed
    obtain ⟨place, position, stuck⟩ := exists_reported run
    obtain rfl : record = _ := Option.some.inj (known.symm.trans reports)
    rw [Furthest.toSyntaxError_code_literal, reported_literal run position]
    rw [position] at here ⊢
    constructor
    · rintro ⟨miss, member, same, refused⟩
      obtain ⟨found, there, unusable⟩ := run.literal_at miss member refused
      rw [same, here] at there
      obtain rfl := Option.some.inj there
      obtain ⟨numbers, usable⟩ := numberAt_zero here unusable
      exact ⟨unusable, further_of_literal run position ⟨miss, member, same, refused⟩ numbers usable⟩
    · rintro ⟨unusable, further⟩
      by_contra plain
      have stays := failurePlace_of_number run more position (halts_of_plain stuck plain)
        (numberAt_zero here unusable).1
      exact Nat.lt_irrefl _ (further place stays)
  · rw [Furthest.toSyntaxError_code]
    split
    case isTrue => exact fun other => absurd rfl other
    case isFalse => exact fun _ => rfl

/-- A fraction where a statement stands is refused for its text. -/
theorem parse_error_code_of_fraction :
    let tokens : List Token := [⟨.identifier, "f", ⟨1, 1⟩⟩, ⟨.symbol, "(", ⟨1, 2⟩⟩,
      ⟨.symbol, ")", ⟨1, 3⟩⟩, ⟨.symbol, "\x7b", ⟨1, 5⟩⟩, ⟨.number, "1.5", ⟨1, 7⟩⟩,
      ⟨.symbol, ";", ⟨1, 10⟩⟩, ⟨.symbol, "\x7d", ⟨1, 12⟩⟩]
    let error : SyntaxError := ⟨.literal, "expected 'if', 'while', 'for', 'break', 'return', " ++
      "'throw', 'let', integer literal, string, 'true', 'false', identifier, '(' or '\x7d', " ++
      "found '1.5'", ⟨1, 7⟩, some "if", none⟩
    ∃ record token, (ParseSession.ofTokens tokens).parse.2.furthest = some record ∧
      (closed tokens)[record.position]? = some token ∧ error = record.toSyntaxError token ∧
      (error.code = .literal ↔ token.IsUnusable ∧
        ∀ place ∈ failurePlace (tokens.set record.position token.zero), record.position < place) ∧
      (error.code ≠ .literal → error.code = .grammar) :=
  parse_error_code rfl

end CollectionSchema
