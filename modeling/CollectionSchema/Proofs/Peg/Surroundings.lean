import CollectionSchema.Proofs.Peg.Inversion

/-!
# What surrounds a match

What a match takes does not tell all of it: an optional part that was left out could
not be matched by the tokens that are there, and these tokens stand behind the match.
So for each phrase this says what a match has found in the tokens from its first one
on (`Phrase.Meets`): how its parts follow each other, and which phrases failed where.
Parts that symbols stand for enter by a relation between their values, the tokens from
the first one on, and how many of them are taken.

Whatever relation that is: when the phrase that defines a symbol meets only what is in
the relation, every match is of that kind (`Run.meets`).  So what the parts of a
program have to do with the tokens behind them can be shown by one step for each
symbol.
-/

set_option autoImplicit false

namespace CollectionSchema.Peg

variable {α β : Type}

/-! ## Matches and failures -/

/-- A phrase does not match at the front of some tokens. -/
def Phrase.Fails (name : RuleName) (phrase : Phrase α) (tokens : List Token) : Prop :=
  ∃ misses, Run name phrase tokens misses none

namespace Nonterminal

/-- A symbol matches at the front of some tokens, with a value and the number of tokens taken. -/
def Matches (symbol : Nonterminal α) (value : α) (tokens : List Token) (taken : Nat) : Prop :=
  ∃ misses, Run symbol.name (definition symbol) tokens misses (some (value, taken))

/-- A symbol does not match at the front of some tokens. -/
def Fails (symbol : Nonterminal α) (tokens : List Token) : Prop :=
  (definition symbol).Fails symbol.name tokens

theorem Matches.not_fails {symbol : Nonterminal α} {value : α} {tokens : List Token} {taken : Nat}
    (matched : symbol.Matches value tokens taken) : ¬ symbol.Fails tokens := by
  rintro ⟨_, failed⟩
  obtain ⟨_, run⟩ := matched
  cases (run.unique failed).2

end Nonterminal

namespace Phrase.Fails

variable {name : RuleName} {tokens : List Token}

theorem reference {symbol : Nonterminal α} (fails : (Phrase.reference symbol).Fails name tokens) :
    symbol.Fails tokens := by
  obtain ⟨misses, run⟩ := fails
  exact ⟨misses, run.tried⟩

theorem of_choice {first second : Phrase α}
    (fails : (Phrase.choice first second).Fails name tokens) :
    first.Fails name tokens ∧ second.Fails name tokens := by
  obtain ⟨_, run⟩ := fails
  rcases run.tried with ⟨found, _⟩ | ⟨_, _, left, right, _⟩
  · cases found
  · exact ⟨⟨_, left⟩, _, right⟩

theorem of_map {build : α → β} {body : Phrase α}
    (fails : (Phrase.map build body).Fails name tokens) :
    body.Fails name tokens := by
  obtain ⟨_, run⟩ := fails
  obtain ⟨_, inner, missed⟩ := run.tried
  rw [further_eq_none_iff.mp missed.symm] at inner
  exact ⟨_, inner⟩

end Phrase.Fails

/-! ## What a match meets -/

/-- Parts in a row, each at the tokens that the parts in front of it leave. -/
inductive InRow (part : α → List Token → Nat → Prop) : List α → List Token → Nat → Prop
  | nil {tokens : List Token} : InRow part [] tokens 0
  | cons {item : α} {items : List α} {tokens : List Token} {taken more : Nat}
      (first : part item tokens taken) (others : InRow part items (tokens.drop taken) more) :
      InRow part (item :: items) tokens (taken + more)

theorem InRow.forall {part : α → List Token → Nat → Prop} {holds : α → Prop} {items : List α}
    {tokens : List Token} {taken : Nat} (row : InRow part items tokens taken)
    (each : ∀ item tokens taken, part item tokens taken → holds item) :
    ∀ item ∈ items, holds item := by
  induction row with
  | nil => exact nofun
  | cons first _ ih => exact List.forall_mem_cons.mpr ⟨each _ _ _ first, ih⟩

/-- What a phrase has found in some tokens when it makes a value of so many of them, when a relation
says this for the symbols. -/
def Phrase.Meets (means : {α : Type} → Nonterminal α → α → List Token → Nat → Prop)
    (name : RuleName) : {α : Type} → Phrase α → α → List Token → Nat → Prop
  | _, .token terminal, value, tokens, taken =>
      taken = 1 ∧ ∃ token ∈ tokens.head?, terminal.read token = some value
  | _, .reference symbol, value, tokens, taken =>
      symbol.Matches value tokens taken ∧ means symbol value tokens taken
  | _, .sequence first second, value, tokens, taken =>
      ∃ front behind, taken = front + behind ∧ first.Meets means name value.1 tokens front ∧
        second.Meets means name value.2 (tokens.drop front) behind
  | _, .choice first second, value, tokens, taken =>
      first.Meets means name value tokens taken ∨
        first.Fails name tokens ∧ second.Meets means name value tokens taken
  | _, .optional body, none, tokens, taken => taken = 0 ∧ body.Fails name tokens
  | _, .optional body, some value, tokens, taken => body.Meets means name value tokens taken
  | _, .many body, items, tokens, taken => InRow (body.Meets means name) items tokens taken
  | _, .flagged character body, value, tokens, taken =>
      (value.1 = true ∧ (∃ token ∈ tokens.head?, token.isSymbol character = true) ∧
        ∃ behind, taken = 1 + behind ∧ body.Meets means name value.2 (tokens.drop 1) behind) ∨
      value.1 = false ∧ body.Meets means name value.2 tokens taken
  | _, .operation operand, value, tokens, taken =>
      ∃ front behind, taken = front + behind ∧
        Recognizer.operator.look tokens = some (value.1, front) ∧
        operand.Meets means name value.2 (tokens.drop front) behind
  | _, .map build body, value, tokens, taken =>
      ∃ inner, build inner = value ∧ body.Meets means name inner tokens taken
  | _, .located build body, value, tokens, taken =>
      ∃ place inner, build place inner = value ∧ body.Meets means name inner tokens taken

variable {means : {α : Type} → Nonterminal α → α → List Token → Nat → Prop} {name : RuleName}

/-- A match meets its value in the tokens from its first one on. -/
theorem Run.meets {phrase : Phrase α} {tokens : List Token} {misses : List Miss}
    {found : Option (α × Nat)} (run : Run name phrase tokens misses found)
    (step : ∀ {α : Type} (symbol : Nonterminal α) (value : α) (tokens : List Token) (taken : Nat),
      (definition symbol).Meets means symbol.name value tokens taken →
        means symbol value tokens taken) :
    ∀ {value : α} {taken : Nat}, found = some (value, taken) →
      phrase.Meets means name value tokens taken := by
  induction run with
  | token read =>
      rintro _ _ ⟨⟩
      exact ⟨rfl, _, rfl, read⟩
  | @reference _ _ symbol _ _ _ inner ih =>
      rintro _ _ rfl
      exact ⟨⟨_, inner⟩, step symbol _ _ _ (ih rfl)⟩
  | sequence _ _ left right =>
      intro _ _ matched
      obtain ⟨_, _, rfl, rfl, rfl⟩ := further_eq_some_iff.mp matched
      exact ⟨_, _, rfl, left rfl, right rfl⟩
  | choiceFirst _ ih => exact fun matched => .inl (ih matched)
  | choiceSecond left _ _ ih => exact fun matched => .inr ⟨⟨_, left⟩, ih matched⟩
  | optional _ ih =>
      rintro _ _ ⟨⟩
      exact ih rfl
  | optionalMissed inner _ =>
      rintro _ _ ⟨⟩
      exact ⟨rfl, _, inner⟩
  | manyEnd _ _ =>
      rintro _ _ ⟨⟩
      exact .nil
  | many _ _ _ inner others =>
      rintro _ _ ⟨⟩
      exact .cons (inner rfl) (others rfl)
  | flagged set _ ih =>
      intro _ _ matched
      obtain ⟨_, _, rfl, rfl, rfl⟩ := further_eq_some_iff.mp matched
      exact .inl ⟨rfl, ⟨_, rfl, set⟩, _, rfl, ih rfl⟩
  | flaggedUnset _ _ _ ih =>
      intro _ _ matched
      obtain ⟨_, _, rfl, rfl, rfl⟩ := further_eq_some_iff.mp matched
      rw [Nat.zero_add]
      exact .inr ⟨rfl, ih rfl⟩
  | operation _ read _ ih =>
      intro _ _ matched
      obtain ⟨_, _, rfl, rfl, rfl⟩ := further_eq_some_iff.mp matched
      exact ⟨_, _, rfl, read, ih rfl⟩
  | map _ ih =>
      intro _ _ matched
      obtain ⟨_, _, rfl, rfl, rfl⟩ := further_eq_some_iff.mp matched
      rw [Nat.zero_add]
      exact ⟨_, rfl, ih rfl⟩
  | located _ _ ih =>
      intro _ _ matched
      obtain ⟨_, _, rfl, rfl, rfl⟩ := further_eq_some_iff.mp matched
      rw [Nat.zero_add]
      exact ⟨_, _, rfl, ih rfl⟩
  | _ =>
      intro _ _ matched
      cases matched

namespace Phrase.Meets

variable {body : Phrase α} {value : α} {tokens : List Token} {taken : Nat}

theorem of_behind {terminal : Terminal Unit}
    (meets : (Phrase.behind terminal body).Meets means name value tokens taken) :
    ∃ more, taken = 1 + more ∧ body.Meets means name value (tokens.drop 1) more := by
  obtain ⟨_, rfl, _, more, rfl, ⟨rfl, _⟩, inner⟩ := meets
  exact ⟨more, rfl, inner⟩

theorem of_before {terminal : Terminal Unit}
    (meets : (Phrase.before body terminal).Meets means name value tokens taken) :
    ∃ fewer, taken = fewer + 1 ∧ body.Meets means name value tokens fewer := by
  obtain ⟨_, rfl, fewer, _, rfl, inner, rfl, _⟩ := meets
  exact ⟨fewer, rfl, inner⟩

theorem of_braced {items : List α}
    (meets : (Phrase.braced body).Meets means name items tokens taken) :
    ∃ count, InRow (body.Meets means name) items (tokens.drop 1) count := by
  obtain ⟨_, rfl, inner⟩ := meets.of_behind
  obtain ⟨count, rfl, row⟩ := inner.of_before
  exact ⟨count, row⟩

end Phrase.Meets

end CollectionSchema.Peg
