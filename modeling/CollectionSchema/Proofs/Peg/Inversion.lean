import CollectionSchema.Proofs.Peg.Follow

/-!
# What a run is made of

A run of a phrase of a known form is made of runs of its parts.  The runs are
indexed by the type of what they build, so this is stated by recursion over the
phrase (`Phrase.Tried`) and holds of every run (`Run.tried`).
-/

set_option autoImplicit false

namespace CollectionSchema.Peg

variable {α β : Type}

/-- How a phrase can have turned out, in terms of runs of its parts. -/
def Phrase.Tried (name : RuleName) : {α : Type} → Phrase α → List Token → List Miss →
    Option (α × Nat) → Prop
  | _, .token terminal, tokens, misses, found =>
      (misses = [] ∧ ∃ first rest value, tokens = first :: rest ∧
        terminal.read first = some value ∧ found = some (value, 1)) ∨
      (misses = terminal.misses name tokens.head? ∧ found = none)
  | _, .reference symbol, tokens, misses, found =>
      Run symbol.name (definition symbol) tokens misses found
  | _, .sequence first second, tokens, misses, found =>
      (found = none ∧ Run name first tokens misses none) ∨
      ∃ value taken front later behind, Run name first tokens front (some (value, taken)) ∧
        Run name second (tokens.drop taken) later behind ∧
        misses = front ++ later.map (Miss.shift taken) ∧
        found = further (fun result => (value, result)) taken behind
  | _, .choice first second, tokens, misses, found =>
      (found.isSome = true ∧ Run name first tokens misses found) ∨
      ∃ front later, Run name first tokens front none ∧ Run name second tokens later found ∧
        misses = front ++ later
  | _, .optional body, tokens, misses, found =>
      (∃ value taken, Run name body tokens misses (some (value, taken)) ∧
        found = some (some value, taken)) ∨
      (Run name body tokens misses none ∧ found = some (none, 0))
  | _, .many body, tokens, misses, found =>
      (Run name body tokens misses none ∧ found = some ([], 0)) ∨
      ∃ item items taken more front later, Run name body tokens front (some (item, taken)) ∧
        Run name (.many body) (tokens.drop taken) later (some (items, more)) ∧
        misses = front ++ later.map (Miss.shift taken) ∧
        found = some (item :: items, taken + more)
  | _, .flagged character body, tokens, misses, found =>
      (∃ first rest inner result, tokens = first :: rest ∧ first.isSymbol character = true ∧
        Run name body rest inner result ∧ misses = inner.map (Miss.shift 1) ∧
        found = further (fun value => (true, value)) 1 result) ∨
      ∃ result, Run name body tokens misses result ∧
        found = further (fun value => (false, value)) 0 result
  | _, .operation operand, tokens, misses, found =>
      (misses = [⟨0, false, name, .operator⟩] ∧ found = none) ∨
      ∃ operator taken inner result, Recognizer.operator.look tokens = some (operator, taken) ∧
        Run name operand (tokens.drop taken) inner result ∧
        misses = inner.map (Miss.shift taken) ∧
        found = further (fun value => (operator, value)) taken result
  | _, .map build body, tokens, misses, found =>
      ∃ result, Run name body tokens misses result ∧ found = further build 0 result
  | _, .located build body, tokens, misses, found =>
      ∃ result, Run name body tokens misses result ∧
        found = further (build ((tokens.head?.map Token.position).getD Position.start)) 0 result

/-- A run is made of runs of the parts of its phrase. -/
theorem Run.tried {name : RuleName} {phrase : Phrase α} {tokens : List Token}
    {misses : List Miss} {found : Option (α × Nat)} (run : Run name phrase tokens misses found) :
    phrase.Tried name tokens misses found := by
  cases run with
  | token read => exact .inl ⟨rfl, _, _, _, rfl, read, rfl⟩
  | tokenMissed _ => exact .inr ⟨rfl, rfl⟩
  | reference inner => exact inner
  | sequenceMissed left => exact .inl ⟨rfl, left⟩
  | sequence left right => exact .inr ⟨_, _, _, _, _, left, right, rfl, rfl⟩
  | choiceFirst left => exact .inl ⟨rfl, left⟩
  | choiceSecond left right => exact .inr ⟨_, _, left, right, rfl⟩
  | optional inner => exact .inl ⟨_, _, inner, rfl⟩
  | optionalMissed inner => exact .inr ⟨inner, rfl⟩
  | manyEnd inner => exact .inl ⟨inner, rfl⟩
  | many _ inner others => exact .inr ⟨_, _, _, _, _, _, inner, others, rfl, rfl⟩
  | flagged set inner => exact .inl ⟨_, _, _, _, rfl, set, inner, rfl, rfl⟩
  | flaggedUnset _ _ inner => exact .inr ⟨_, inner, rfl⟩
  | operationMissed _ => exact .inl ⟨rfl, rfl⟩
  | operation _ read inner => exact .inr ⟨_, _, _, _, read, inner, rfl, rfl⟩
  | map inner => exact ⟨_, inner, rfl⟩
  | located _ inner => exact ⟨_, inner, rfl⟩

section Parts

variable {name : RuleName} {tokens : List Token} {misses : List Miss} {taken : Nat}

theorem Run.unique {phrase : Phrase α} {others : List Miss} {found again : Option (α × Nat)}
    (run : Run name phrase tokens misses found) (other : Run name phrase tokens others again) :
    misses = others ∧ found = again := by
  have same := run.reply.symm.trans other.reply
  rw [Reply.mk.injEq] at same
  exact same

theorem Run.of_token {terminal : Terminal α} {value : α}
    (run : Run name (.token terminal) tokens misses (some (value, taken))) :
    misses = [] ∧ taken = 1 ∧
      ∃ first rest, tokens = first :: rest ∧ terminal.read first = some value := by
  rcases run.tried with ⟨rfl, first, rest, _, rfl, read, matched⟩ | ⟨_, matched⟩
  · cases matched
    exact ⟨rfl, rfl, first, rest, rfl, read⟩
  · cases matched

/-- A token that is not what was asked for is all that is noted. -/
theorem Run.position_of_token_missed {terminal : Terminal α}
    (run : Run name (.token terminal) tokens misses none) :
    ∀ miss ∈ misses, miss.position = 0 := by
  rcases run.tried with ⟨_, _, _, _, _, _, matched⟩ | ⟨rfl, _⟩
  · cases matched
  · exact Terminal.misses_position _ _ _

theorem Run.of_sequence {first : Phrase α} {second : Phrase β} {result : α × β}
    (run : Run name (.sequence first second) tokens misses (some (result, taken))) :
    ∃ value more front later before after, Run name first tokens front (some (value, before)) ∧
      Run name second (tokens.drop before) later (some (more, after)) ∧ result = (value, more) ∧
      misses = front ++ later.map (Miss.shift before) ∧ taken = before + after := by
  rcases run.tried with ⟨matched, _⟩ | ⟨value, before, front, later, _ | ⟨more, after⟩, left, right,
    noted, matched⟩
  · cases matched
  · cases matched
  · cases matched
    exact ⟨value, more, front, later, before, after, left, right, rfl, noted, rfl⟩

theorem Run.of_map {build : α → β} {body : Phrase α} {result : β}
    (run : Run name (.map build body) tokens misses (some (result, taken))) :
    ∃ value, Run name body tokens misses (some (value, taken)) ∧ build value = result := by
  obtain ⟨_ | ⟨value, count⟩, inner, matched⟩ := run.tried
  · cases matched
  · rw [further_some, Nat.zero_add] at matched
    cases matched
    exact ⟨value, inner, rfl⟩

theorem Run.of_located {build : Position → α → β} {body : Phrase α} {result : β}
    (run : Run name (.located build body) tokens misses (some (result, taken))) :
    ∃ value, Run name body tokens misses (some (value, taken)) := by
  obtain ⟨_ | ⟨value, count⟩, inner, matched⟩ := run.tried
  · cases matched
  · rw [further_some, Nat.zero_add] at matched
    cases matched
    exact ⟨value, inner⟩

/-- A phrase behind a word or a mark fails at this token, or it is tried behind it. -/
theorem Run.behind_cases {terminal : Terminal Unit} {body : Phrase α} {found : Option (α × Nat)}
    (run : Run name (.behind terminal body) tokens misses found) :
    (misses = terminal.misses name tokens.head? ∧ found = none) ∨
    ∃ first rest inner result, tokens = first :: rest ∧ terminal.read first = some () ∧
      Run name body rest inner result ∧ misses = inner.map (Miss.shift 1) ∧
      found = further id 1 result := by
  obtain ⟨_, whole, rfl⟩ := run.tried
  rcases whole.tried with ⟨rfl, word⟩ | ⟨_, before, front, later, result, word, inner, rfl, rfl⟩
  · rcases word.tried with ⟨_, _, _, _, _, _, matched⟩ | ⟨rfl, _⟩
    · cases matched
    · exact .inl ⟨rfl, rfl⟩
  · obtain ⟨rfl, rfl, first, rest, rfl, read⟩ := word.of_token
    refine .inr ⟨first, rest, later, result, rfl, read, inner, rfl, ?_⟩
    rcases result with _ | ⟨value, count⟩
    · rfl
    · simp

theorem Run.of_behind {terminal : Terminal Unit} {body : Phrase α} {value : α}
    (run : Run name (.behind terminal body) tokens misses (some (value, taken))) :
    ∃ first rest inner count, tokens = first :: rest ∧ terminal.read first = some () ∧
      Run name body rest inner (some (value, count)) ∧ misses = inner.map (Miss.shift 1) ∧
      taken = 1 + count := by
  rcases run.behind_cases with
    ⟨_, matched⟩ | ⟨first, rest, inner, _ | ⟨_, count⟩, same, read, tried,
    noted, matched⟩
  · cases matched
  · cases matched
  · cases matched
    exact ⟨first, rest, inner, count, same, read, tried, noted, rfl⟩

theorem Run.of_before {terminal : Terminal Unit} {body : Phrase α} {value : α}
    (run : Run name (.before body terminal) tokens misses (some (value, taken))) :
    ∃ count last rest, Run name body tokens misses (some (value, count)) ∧
      tokens.drop count = last :: rest ∧ terminal.read last = some () ∧ taken = count + 1 := by
  obtain ⟨_, whole, rfl⟩ := run.of_map
  obtain ⟨_, _, front, later, count, after, inner, word, rfl, rfl, rfl⟩ := whole.of_sequence
  obtain ⟨rfl, rfl, last, rest, same, read⟩ := word.of_token
  rw [List.map_nil, List.append_nil]
  exact ⟨count, last, rest, inner, same, read, rfl⟩

end Parts

end CollectionSchema.Peg
