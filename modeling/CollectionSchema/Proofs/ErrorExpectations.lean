import CollectionSchema.Proofs.NumberError

/-!
# What an error says was expected

The error of a parse lists what was wanted at the token that it is about.  The list
is drawn together from alternatives of different rules, most of which were given up
before the error was made, and one that was given up could have wanted something that
no program has there.  It never did: whatever is on the list, every token of that kind
can stand in the place of the refused one, and the text in front of it and the token
begin a program.

Where nothing got past the first token that is left over, the list only says that a
declaration was wanted, and every token that begins a declaration can stand there.
-/

set_option autoImplicit false

namespace CollectionSchema

open Peg (Run Passes Stuck declarations)

/-- In front of the last token, a closed list is the list that was closed. -/
theorem take_closed {tokens : List Token} {place : Nat} (inside : place < (closed tokens).length) :
    (closed tokens).take place = tokens.take place := by
  rcases List.eq_nil_or_concat tokens with rfl | ⟨front, last, rfl⟩
  · obtain rfl : place = 0 := Nat.lt_one_iff.mp inside
    rfl
  · rw [closed, List.concat_eq_append, List.getLast?_concat] at inside ⊢
    dsimp only at inside ⊢
    split
    case isTrue => rfl
    case isFalse more =>
      rw [if_neg more, List.length_append, List.length_singleton] at inside
      exact List.take_append_of_le_length (Nat.le_of_lt_succ inside)

namespace ParseSession

variable {tokens : List Token} {misses : List Miss} {found : List Declaration} {taken : Nat}

/-- What a report lists was wanted by a note at its place, or it is a declaration at the end of all
declarations. -/
theorem wanted_of_reported {expected : Expectation}
    (listed : expected ∈ (reported (Furthest.recordAll none misses) taken).expected) :
    (∃ miss ∈ misses, miss.position = (reported (Furthest.recordAll none misses) taken).position ∧
      miss.expected = expected) ∨
    (reported (Furthest.recordAll none misses) taken).position = taken ∧
      expected = .declaration := by
  have declared : expected ∈ (Furthest.declarationAt taken).expected →
      (Furthest.declarationAt taken).position = taken ∧ expected = .declaration :=
    fun listed => ⟨rfl, List.mem_singleton.mp listed⟩
  rcases all : Furthest.recordAll none misses with _ | known
  · rw [all] at listed
    exact .inr (declared listed)
  · have summary := Furthest.summarizes_of_recordAll all
    rw [all, reported] at listed
    rw [reported]
    split
    case isTrue le =>
      rw [if_pos le] at listed
      exact .inr (declared listed)
    case isFalse further =>
      rw [if_neg further, summary.expected, List.mem_eraseDups, List.mem_map] at listed
      obtain ⟨miss, there, same⟩ := listed
      obtain ⟨noted, here⟩ := List.mem_filter.mp there
      exact .inl ⟨miss, noted, of_decide_eq_true here, same⟩

/-- Behind declarations that were read, tokens that make a program add their declarations. -/
theorem parse_behind_declarations
    (run : Run .program declarations (closed tokens) misses (some (found, taken)))
    {others : List Token} {program : Program} (more : others ≠ [])
    (parsed : CollectionSchema.parse others = .ok program) :
    CollectionSchema.parse ((closed tokens).take taken ++ others) =
      .ok ⟨found ++ program.declarations⟩ := by
  have length : ((closed tokens).take taken).length = taken :=
    List.length_take_of_le (run.passes rfl).1
  rw [← List.take_append_drop taken (closed tokens)] at run
  obtain ⟨later, added, count, behind⟩ := exists_run others
  rcases ended : ((ofTokens others).tokenAt count).isEnd with _ | _
  · rw [parse_of_not_ended behind ended] at parsed
    cases parsed
  · rw [parse_of_ended behind ended] at parsed
    cases parsed
    obtain ⟨_, _, whole⟩ := Run.declarations_append (by rwa [length]) behind
    rw [← closed_append_of_ne_nil _ more] at whole
    exact parse_of_ended whole (by rw [tokenAt_append _ more, ended])

end ParseSession

/-- Everything that the error of a failed parse says was expected is accepted in the place of the
token that the error is about: there are tokens of that kind, and with any of them the tokens in
front of it can be completed to a program. -/
theorem parse_error_expectations {tokens : List Token} {error : SyntaxError} {after : ParseSession}
    (failed : (ParseSession.ofTokens tokens).parse = (.error error, after)) :
    ∃ record token, after.furthest = some record ∧
      (closed tokens)[record.position]? = some token ∧ error = record.toSyntaxError token ∧
      ∀ expected ∈ record.expected, (∃ other, expected.Admits other) ∧
        ∀ other, expected.Admits other → ∃ rest program,
          parse (tokens.take record.position ++ other :: rest) = .ok program := by
  obtain ⟨record, token, known, here, rfl⟩ := ParseSession.exists_record_of_failed failed
  refine ⟨record, token, known, here, rfl, fun expected listed => ?_⟩
  refine ⟨expected.exists_admitted, fun other admits => ?_⟩
  obtain ⟨misses, found, taken, run⟩ := ParseSession.exists_run tokens
  obtain ⟨_, reports⟩ := ParseSession.furthest_of_failed run failed
  obtain rfl : record = _ := Option.some.inj (known.symm.trans reports)
  obtain ⟨place, position, stuck⟩ := ParseSession.exists_reported run
  rw [position] at here ⊢
  rw [← take_closed (lt_length_closed (stuck.passes run))]
  rcases ParseSession.wanted_of_reported listed with ⟨miss, noted, there, rfl⟩ | ⟨there, rfl⟩
  · obtain ⟨words, completes⟩ := run.takes_of_admits rfl trivial stuck.upTo noted
      (there.trans position) admits
    exact ⟨words, ParseSession.exists_program_of_completes completes (stuck.passes run)⟩
  · obtain ⟨rest, program, parsed, _⟩ := admits
    obtain rfl : taken = place := there.symm.trans position
    exact ⟨rest, _, ParseSession.parse_behind_declarations run (List.cons_ne_nil _ _) parsed⟩

/-- Behind the condition of a conditional, a semicolon is refused.  What was wanted comes from the
two branches, from the statements behind the conditional and from the block around it. -/
theorem parse_error_expectations_of_missing_branch :
    let tokens : List Token := [⟨.identifier, "f", ⟨1, 1⟩⟩, ⟨.symbol, "(", ⟨1, 2⟩⟩,
      ⟨.symbol, ")", ⟨1, 3⟩⟩, ⟨.symbol, "\x7b", ⟨1, 5⟩⟩, ⟨.identifier, "if", ⟨1, 7⟩⟩,
      ⟨.symbol, "(", ⟨1, 10⟩⟩, ⟨.identifier, "c", ⟨1, 11⟩⟩, ⟨.symbol, ")", ⟨1, 12⟩⟩,
      ⟨.symbol, ";", ⟨1, 13⟩⟩, ⟨.symbol, "\x7d", ⟨1, 15⟩⟩]
    let error : SyntaxError := ⟨.grammar, "expected '\x7b', 'break', 'return', 'throw', 'let', " ++
      "number, string, 'true', 'false', identifier, '(', 'else', 'if', 'while', 'for' or " ++
      "'\x7d', found ';'", ⟨1, 13⟩, some "block", none⟩
    ∃ record token, (ParseSession.ofTokens tokens).parse.2.furthest = some record ∧
      (closed tokens)[record.position]? = some token ∧ error = record.toSyntaxError token ∧
      ∀ expected ∈ record.expected, (∃ other, expected.Admits other) ∧
        ∀ other, expected.Admits other → ∃ rest program,
          parse (tokens.take record.position ++ other :: rest) = .ok program :=
  parse_error_expectations rfl

end CollectionSchema
