import CollectionSchema.Proofs.ErrorLocation
import CollectionSchema.Proofs.Peg.Sealed

/-!
# Parsing one program behind another

Behind tokens that make a program, parsing goes on as if nothing stood in front of
the rest: the declarations of the rest are added, or its error is reported.  A
declaration that was read stays as it is, since it was not looked past, and no note
that was made in front of the rest reaches as far as the first note of the rest.
-/

set_option autoImplicit false

namespace CollectionSchema

open Peg (Run Passes Within declarations definition)

/-! ## Runs behind runs -/

namespace Peg

variable {name : RuleName}

/-- Declarations that end where some tokens end are read again when other tokens follow, with the
declarations of the other tokens behind them. -/
theorem Run.declarations_append {found : List Declaration} :
    ∀ {tokens tail other : List Token} {misses later : List Miss} {more : List Declaration}
      {count : Nat},
      Run name declarations (tokens ++ tail) misses (some (found, tokens.length)) →
      Run name declarations other later (some (more, count)) →
      ∃ front, (∀ miss ∈ front, miss.position < tokens.length) ∧
        Run name declarations (tokens ++ other) (front ++ later.map (Miss.shift tokens.length))
          (some (found ++ more, tokens.length + count)) := by
  induction found with
  | nil =>
      intro tokens tail other misses later more count run behind
      rcases run.tried with ⟨_, matched⟩ | ⟨_, _, _, _, _, _, _, _, _, matched⟩
      · have empty : tokens = [] :=
          List.eq_nil_of_length_eq_zero (Prod.mk.inj (Option.some.inj matched)).2
        subst empty
        refine ⟨[], List.forall_mem_nil _, ?_⟩
        rw [List.length_nil, Miss.map_shift_zero, Nat.zero_add]
        exact behind
      · cases (Prod.mk.inj (Option.some.inj matched)).1
  | cons declaration found ih =>
      intro tokens tail other misses later more count run behind
      rcases run.tried with ⟨_, matched⟩ | ⟨first, others, taken, rest, front, _, inner, outer, rfl,
        matched⟩
      · cases (Prod.mk.inj (Option.some.inj matched)).1
      · obtain ⟨same, length⟩ := Prod.mk.inj (Option.some.inj matched)
        cases same
        have lengthRest : (tokens.drop taken).length = rest := by
          rw [List.length_drop]
          omega
        rw [List.drop_append_of_le_length (by omega), ← lengthRest] at outer
        obtain ⟨inFront, bound, whole⟩ := ih outer behind
        have sealedBound := declaration_lt inner.tried
        have again : Run name (.reference .declaration) (tokens ++ other) front _ :=
          inner.steady ⟨sealedBound, by rintro _ _ ⟨⟩; exact Nat.le_refl _⟩ (by
            rw [List.take_append_of_le_length (by omega),
              List.take_append_of_le_length (by omega)])
        rw [← List.drop_append_of_le_length (by omega)] at whole
        refine ⟨front ++ inFront.map (Miss.shift taken), ?_, ?_⟩
        · intro miss member
          rcases List.mem_append.mp member with member | member
          · have := sealedBound miss member
            omega
          · obtain ⟨noted, inside, rfl⟩ := List.mem_map.mp member
            have := bound noted inside
            rw [Miss.shift_position]
            omega
        · have lengths : taken + (tokens.drop taken).length = tokens.length := by omega
          have shifts : Miss.shift taken ∘ Miss.shift (tokens.drop taken).length =
              Miss.shift tokens.length := by
            funext miss
            rw [Function.comp_apply, Miss.shift_shift, lengths]
          have total := Run.many rfl again whole
          rw [List.map_append, List.map_map, shifts, ← List.append_assoc, ← Nat.add_assoc,
            lengths] at total
          exact total

end Peg

/-! ## Records behind records -/

namespace Furthest

/-- The same record with more tokens counted before it. -/
def shift (distance : Nat) (furthest : Furthest) : Furthest :=
  { furthest with position := distance + furthest.position }

theorem record_shift (distance : Nat) (known : Option Furthest) (miss : Miss) :
    record (known.map (shift distance)) (miss.shift distance) =
      (record known miss).map (shift distance) := by
  rcases known with _ | known
  · rfl
  · simp only [Option.map_some, record, shift, Miss.shift, Nat.add_lt_add_iff_left,
      Nat.add_left_cancel_iff]
    split
    · rfl
    · split <;> rfl

theorem recordAll_shift (distance : Nat) (misses : List Miss) (known : Option Furthest) :
    recordAll (known.map (shift distance)) (misses.map (Miss.shift distance)) =
      (recordAll known misses).map (shift distance) := by
  induction misses generalizing known with
  | nil => rfl
  | cons first rest ih =>
      rw [List.map_cons, recordAll, List.foldl_cons, record_shift]
      exact ih (record known first)

/-- Notes in front of all others do not show in the record. -/
theorem recordAll_append {front later : List Miss} {distance : Nat}
    (before : ∀ miss ∈ front, miss.position < distance) (noted : later ≠ []) :
    recordAll none (front ++ later.map (Miss.shift distance)) =
      (recordAll none later).map (shift distance) := by
  have alone := recordAll_shift distance later none
  obtain ⟨first, rest, rfl⟩ := List.exists_cons_of_ne_nil noted
  rw [← alone, List.map_cons]
  by_cases empty : front = []
  · subst empty
    rfl
  · obtain ⟨known, all, _, miss, member, place⟩ := recordAll_none empty
    have behind : known.position < (first.shift distance).position := by
      have := before miss member
      rw [Miss.shift_position]
      omega
    have restart : record (some known) (first.shift distance) =
        record none (first.shift distance) := by
      simp only [record]
      rw [if_neg (by omega), if_neg (by omega)]
    calc recordAll none (front ++ first.shift distance :: rest.map (Miss.shift distance))
        = recordAll (recordAll none front)
            (first.shift distance :: rest.map (Miss.shift distance)) := List.foldl_append
      _ = recordAll (record (some known) (first.shift distance))
            (rest.map (Miss.shift distance)) := by rw [all]; rfl
      _ = recordAll none (first.shift distance :: rest.map (Miss.shift distance)) := by
          rw [restart]; rfl

end Furthest

/-! ## Programs behind programs -/

namespace ParseSession

/-- A session that succeeds has taken all tokens in front of the first end. -/
theorem run_of_parse {tokens front tail : List Token} {last : Token} {program : Program}
    (parsed : CollectionSchema.parse tokens = .ok program)
    (same : closed tokens = front ++ last :: tail)
    (proper : ∀ token ∈ front, token.isEnd = false) (ended : last.isEnd = true) :
    ∃ misses, Run .program declarations (front ++ last :: tail) misses
      (some (program.declarations, front.length)) := by
  obtain ⟨misses, found, taken, run⟩ := exists_run tokens
  rcases more : ((ofTokens tokens).tokenAt taken).isEnd with _ | _
  · rw [parse_of_not_ended run more] at parsed
    cases parsed
  · rw [parse_of_ended run more] at parsed
    cases parsed
    have passes := run.passes rfl
    rw [tokenAt, ofTokens] at more
    rw [same] at run passes more
    have le : taken ≤ front.length := by
      by_contra beyond
      have proper := (passes.mono (by omega : front.length + 1 ≤ taken)).2 last (by
        rw [List.take_append, List.take_of_length_le (by omega)]
        simp)
      rw [ended] at proper
      cases proper
    have ge : front.length ≤ taken := by
      by_contra before
      rw [List.getElem?_append_left (by omega), List.getElem?_eq_getElem (by omega),
        Option.getD_some, proper _ (List.getElem_mem _)] at more
      cases more
    have all : taken = front.length := Nat.le_antisymm le ge
    exact ⟨misses, all ▸ run⟩

theorem reported_shift (distance : Nat) (known : Option Furthest) (position : Nat) :
    reported (known.map (Furthest.shift distance)) (distance + position) =
      (reported known position).shift distance := by
  rcases known with _ | known
  · rfl
  · simp only [reported, Option.map_some, Furthest.shift, Nat.add_le_add_iff_left]
    split <;> rfl

theorem ne_nil_of_closed {tokens : List Token} (same : closed tokens = tokens) : tokens ≠ [] := by
  rintro rfl
  cases same

theorem closed_append {front other : List Token} (closedOther : closed other = other) :
    closed (front ++ other) = front ++ other := by
  rw [closed_append_of_ne_nil front (ne_nil_of_closed closedOther), closedOther]

/-- Tokens in front of others move them back. -/
theorem tokenAt_append (front : List Token) {other : List Token} (some : other ≠ [])
    (position : Nat) : (ofTokens (front ++ other)).tokenAt (front.length + position) =
      (ofTokens other).tokenAt position := by
  simp only [tokenAt, ofTokens, closed_append_of_ne_nil front some]
  rw [List.getElem?_append_right (Nat.le_add_right _ _), Nat.add_sub_cancel_left]

/-- Behind the tokens of a program, the rest is parsed as it is parsed alone. -/
theorem parse_behind {tokens front tail other : List Token} {last : Token} {program : Program}
    (parsed : CollectionSchema.parse tokens = .ok program)
    (same : closed tokens = front ++ last :: tail)
    (proper : ∀ token ∈ front, token.isEnd = false) (ended : last.isEnd = true)
    (closedOther : closed other = other) :
    CollectionSchema.parse (front ++ other) =
      (CollectionSchema.parse other).map program.append := by
  obtain ⟨_, run⟩ := run_of_parse parsed same proper ended
  obtain ⟨later, more, count, behind⟩ := exists_run other
  have alone := behind
  rw [closedOther] at behind
  obtain ⟨misses, before, whole⟩ := Run.declarations_append run behind
  rw [← closed_append closedOther] at whole
  have token := tokenAt_append front (ne_nil_of_closed closedOther)
  rcases rest : ((ofTokens other).tokenAt count).isEnd with _ | _
  · obtain ⟨miss, member, _⟩ := behind.noted_end rfl rfl
    rw [parse_of_not_ended alone rest, parse_of_not_ended whole (by rw [token, rest]),
      Furthest.recordAll_append before (List.ne_nil_of_mem member), reported_shift]
    simp only [Furthest.shift, token]
    rfl
  · rw [parse_of_ended alone rest, parse_of_ended whole (by rw [token, rest])]
    rfl

end ParseSession

/-- Parsing a program with other tokens behind it adds the declarations of these tokens, or reports
the error that they have by themselves. -/
theorem parse_append {first second : List Token} {last : Token} {program : Program}
    (proper : ∀ token ∈ first, token.isEnd = false) (ended : last.isEnd = true)
    (parsed : parse first = .ok program) :
    parse (first ++ second ++ [last]) = (parse (second ++ [last])).map program.append := by
  obtain ⟨final, same, isFinal⟩ := closed_of_proper proper
  rw [List.append_assoc]
  exact ParseSession.parse_behind parsed same proper isFinal (closed_of_ended ended second)

/-- A collection with a lone semicolon behind it: the semicolon is refused, as it is by itself. -/
theorem parse_append_of_semicolon :
    let first : List Token := [⟨.identifier, "collection", ⟨1, 1⟩⟩, ⟨.identifier, "A", ⟨1, 12⟩⟩,
      ⟨.symbol, "\x7b", ⟨1, 14⟩⟩, ⟨.symbol, "\x7d", ⟨1, 15⟩⟩]
    let second : List Token := [⟨.symbol, ";", ⟨2, 1⟩⟩]
    let last := Token.endAt ⟨2, 2⟩
    parse (first ++ second ++ [last]) =
      (parse (second ++ [last])).map (Program.append ⟨[.collection ⟨⟨1, 1⟩, [], "A", []⟩]⟩) :=
  parse_append (by decide) rfl rfl

end CollectionSchema
