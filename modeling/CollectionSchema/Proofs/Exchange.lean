import CollectionSchema.Proofs.Peg.Keeping
import CollectionSchema.Proofs.Session

/-!
# Programs with an exchanged part

Where a part of the tokens of a program can be exchanged for others, the tokens with any
of them are parsed to a program as well, and the programs differ as the values of the
part do.
-/

set_option autoImplicit false

namespace CollectionSchema

open Peg

variable {H : Type} {variation : Variation H} {here : H}

/-- Tokens of the closed list that do not end the input stand in the list that was closed. -/
theorem split_of_closed {tokens rest : List Token} {place : Nat} (part : List Token)
    (some : part ≠ []) (same : (closed tokens).drop place = part ++ rest)
    (proper : ∀ token ∈ part, token.isEnd = false) :
    ∃ front others, tokens = front ++ (part ++ others) ∧ front.length = place := by
  have inside : ∀ index (lt : index < part.length), tokens[place + index]? = part[index] := by
    intro index lt
    refine getElem?_of_closed ?_ (proper _ (List.getElem_mem lt))
    rw [← List.getElem?_drop, same, List.getElem?_append_left lt, List.getElem?_eq_getElem lt]
  obtain ⟨others, split⟩ : part <+: tokens.drop place :=
    List.prefix_iff_getElem?.mpr fun index lt => by rw [List.getElem?_drop, inside index lt]
  refine ⟨tokens.take place, others, by rw [split, List.take_append_drop], ?_⟩
  have first := inside 0 (List.length_pos_iff.mpr some)
  exact List.length_take_of_le (Nat.le_of_lt (List.getElem?_eq_some_iff.mp first).1)

namespace ParseSession

theorem tokenAt_ofTokens (tokens : List Token) (position : Nat) :
    (ofTokens tokens).tokenAt position =
      ((closed tokens).drop position).head?.getD (Token.endAt Position.start) := by
  rw [tokenAt, ofTokens, List.head?_drop]

/-- A session that succeeds has come to an end of the input. -/
theorem run_ended_of_parse {tokens : List Token} {misses : List Miss} {found : List Declaration}
    {taken : Nat} {program : Program} (parsed : CollectionSchema.parse tokens = .ok program)
    (run : Run .program declarations (closed tokens) misses (some (found, taken))) :
    ((ofTokens tokens).tokenAt taken).isEnd = true ∧ program = ⟨found⟩ := by
  rcases ended : ((ofTokens tokens).tokenAt taken).isEnd with _ | _
  · rw [parse_of_not_ended run ended] at parsed
    cases parsed
  · rw [parse_of_ended run ended] at parsed
    exact ⟨rfl, (Except.ok.inj parsed).symm⟩

/-- Where a part can be exchanged, each of the lists is parsed, and the programs differ as the
values of the part do. -/
theorem parse_vary {means : {β : Type} → Nonterminal β → (H → β) → Prop}
    (kept : ∀ {β : Type} (symbol : Nonterminal β),
      (definition symbol).Kept variation here symbol.name fun _ => True)
    (step : ∀ {β : Type} (symbol : Nonterminal β) (values : H → β),
      (definition symbol).Varies variation means symbol.name values → means symbol values)
    {tokens front : List Token} {lists : H → List Token} {program : Program}
    {found : List Declaration} {more : Nat}
    (parsed : CollectionSchema.parse tokens = .ok program)
    (part : Occurs variation.marks .program declarations (closed tokens) found front.length
      (variation.sizes here) more)
    (same : closed tokens = front ++ variation.lists here)
    (others : ∀ one, closed (lists one) = front ++ variation.lists one) :
    ∃ values : H → List Declaration, program = ⟨values here⟩ ∧
      declarations.Varies variation means .program values ∧
      ∀ one, CollectionSchema.parse (lists one) = .ok ⟨values one⟩ := by
  obtain ⟨values, rfl, varies, reads⟩ := part.vary kept step .declarations same rfl rfl trivial
  obtain ⟨_, run⟩ := part.reads
  obtain ⟨ended, rfl⟩ := run_ended_of_parse parsed run
  refine ⟨values, rfl, varies, fun one => ?_⟩
  obtain ⟨_, again⟩ := reads one
  rw [← others] at again
  refine parse_of_ended again ?_
  rw [tokenAt_ofTokens, same, variation.drop_part front here one] at ended
  rw [tokenAt_ofTokens, others, variation.drop_part front one one]
  exact ended

end ParseSession

end CollectionSchema
