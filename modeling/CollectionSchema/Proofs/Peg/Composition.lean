import CollectionSchema.Proofs.Peg.Run
import CollectionSchema.Proofs.Syntax.Yield
import Mathlib.Data.List.Forall2

/-!
# What a match is made of

A match may be reached after other alternatives were given up, yet what it builds is
made of the tokens that it takes and of nothing else.  For each phrase this says how
the tokens of a match are made up of the tokens of its parts, and that a located
value has the place of the first of its tokens (`Phrase.Made`).  Parts that symbols
stand for enter by a relation between their values and tokens.

Whatever relation that is: when the phrase that defines a symbol makes only what is
in the relation, every match is of that kind (`Run.made`).  So what is to hold of
all parts of a program can be shown by one step for each symbol.
-/

set_option autoImplicit false

namespace CollectionSchema.Peg

variable {α β : Type}

/-! ## Signs of tokens -/

/-- The sign for a token that was asked for. -/
def Terminal.sign : {α : Type} → Terminal α → α → Sign
  | _, .mark character, _ => .mark character
  | _, .word spelling, _ => .word spelling
  | _, .either first second, isFirst => .word (if isFirst then first else second)
  | _, .identifier, name => .word name
  | _, .string, written => .string written
  | _, .number, value => .number value
  | _, .decoratorName, name => .word name.word
  | _, .sortOrder, order => .word order.word
  | _, .basicType, type => .word type.word

theorem isWord_iff {token : Token} {spelling : String} :
    token.isWord spelling = true ↔ token.kind = .identifier ∧ token.lexeme = spelling := by
  simp [Token.isWord]

theorem word_of_find {all : List α} {word : α → String} {text : String} {value : α}
    (found : all.find? (fun other => word other == text) = some value) : text = word value := by
  have spelled := List.find?_some found
  exact (eq_of_beq spelled).symm

theorem Terminal.writtenAs_of_read {terminal : Terminal α} {token : Token} {value : α}
    (read : terminal.read token = some value) : (terminal.sign value).WrittenAs [token] := by
  cases terminal with
  | mark character => exact .mark (by simpa [Terminal.read] using read)
  | word spelling => exact .word (by simpa [Terminal.read] using read)
  | either first second =>
      simp only [Terminal.read] at read
      split at read
      case isTrue is =>
        cases read
        exact .word is
      case isFalse =>
        split at read
        case isTrue is =>
          cases read
          exact .word is
        case isFalse => cases read
  | identifier =>
      obtain ⟨kind, rfl⟩ : token.kind = .identifier ∧ token.lexeme = value := by
        simpa [Terminal.read] using read
      exact .word (isWord_iff.mpr ⟨kind, rfl⟩)
  | string =>
      obtain ⟨kind, rfl⟩ : token.kind = .string ∧ token.lexeme = value := by
        simpa [Terminal.read] using read
      exact .string kind
  | number =>
      obtain ⟨kind, is⟩ : token.kind = .number ∧ _ = some value := by
        simpa [Terminal.read] using read
      exact .number kind is
  | decoratorName | sortOrder | basicType =>
      obtain ⟨kind, is⟩ : token.kind = .identifier ∧ _ = some value := by
        simpa [Terminal.read] using read
      exact .word (isWord_iff.mpr ⟨kind, word_of_find is⟩)

theorem writtenAs_of_look {tokens : List Token} {operator : Operator} {taken : Nat}
    (read : Recognizer.operator.look tokens = some (operator, taken)) :
    (Sign.operator operator).WrittenAs (tokens.take taken) := by
  rcases look_operator_cases read with
    ⟨first, rest, rfl, rfl, symbol, spelled, _⟩ |
    ⟨first, second, rest, rfl, rfl, symbol, also, _, spelled⟩
  · exact .operator symbol (word_of_find spelled)
  · exact .pair symbol also (word_of_find spelled)

/-- Whether a value of a symbol is there: an arm that was matched is not a missing one. -/
def Nonterminal.Present : {α : Type} → Nonterminal α → α → Prop
  | _, .branch, arm => arm.isAbsent = false
  | _, _, _ => True

/-! ## The tokens of a match -/

/-- How a phrase makes a value of tokens, when a relation says this for the symbols. -/
def Phrase.Made (means : {α : Type} → Nonterminal α → α → List Token → Prop) :
    {α : Type} → Phrase α → α → List Token → Prop
  | _, .token terminal, value, tokens =>
      ∃ token, tokens = [token] ∧ terminal.read token = some value
  | _, .reference symbol, value, tokens => symbol.Present value ∧ means symbol value tokens
  | _, .sequence first second, value, tokens =>
      ∃ front behind, tokens = front ++ behind ∧ first.Made means value.1 front ∧
        second.Made means value.2 behind
  | _, .choice first second, value, tokens =>
      first.Made means value tokens ∨ second.Made means value tokens
  | _, .optional _, none, tokens => tokens = []
  | _, .optional body, some value, tokens => body.Made means value tokens
  | _, .many body, items, tokens =>
      ∃ pieces, List.Forall₂ (body.Made means) items pieces ∧ tokens = pieces.flatten
  | _, .flagged character body, value, tokens =>
      (value.1 = false ∧ body.Made means value.2 tokens) ∨
      ∃ token rest, tokens = token :: rest ∧ token.isSymbol character = true ∧ value.1 = true ∧
        body.Made means value.2 rest
  | _, .operation operand, value, tokens =>
      ∃ front behind, tokens = front ++ behind ∧ (Sign.operator value.1).WrittenAs front ∧
        operand.Made means value.2 behind
  | _, .map build body, value, tokens => ∃ inner, build inner = value ∧ body.Made means inner tokens
  | _, .located build body, value, tokens =>
      ∃ first rest inner, tokens = first :: rest ∧ build first.position inner = value ∧
        body.Made means inner tokens

variable {means : {α : Type} → Nonterminal α → α → List Token → Prop}

theorem definition_present {symbol : Nonterminal α} {value : α} {tokens : List Token}
    (made : (definition symbol).Made means value tokens) : symbol.Present value := by
  cases symbol with
  | branch => rcases made with ⟨_, rfl, _⟩ | ⟨_, rfl, _⟩ <;> rfl
  | _ => trivial

/-- A match makes its value of the tokens that it takes. -/
theorem Run.made {name : RuleName} {phrase : Phrase α} {tokens : List Token} {misses : List Miss}
    {found : Option (α × Nat)} (run : Run name phrase tokens misses found)
    (step : ∀ {α : Type} (symbol : Nonterminal α) (value : α) (tokens : List Token),
      (definition symbol).Made means value tokens → means symbol value tokens) :
    ∀ {value : α} {taken : Nat}, found = some (value, taken) →
      phrase.Made means value (tokens.take taken) := by
  induction run with
  | token read =>
      rintro _ _ ⟨⟩
      exact ⟨_, rfl, read⟩
  | @reference _ _ symbol _ _ _ _ ih =>
      intro _ _ matched
      have made := ih matched
      exact ⟨definition_present made, step symbol _ _ made⟩
  | sequence _ _ left right =>
      intro _ _ matched
      obtain ⟨_, _, rfl, rfl, rfl⟩ := further_eq_some_iff.mp matched
      exact ⟨_, _, List.take_add, left rfl, right rfl⟩
  | choiceFirst _ ih => exact fun matched => .inl (ih matched)
  | choiceSecond _ _ _ ih => exact fun matched => .inr (ih matched)
  | optional _ ih =>
      rintro _ _ ⟨⟩
      exact ih rfl
  | optionalMissed _ _ =>
      rintro _ _ ⟨⟩
      rfl
  | manyEnd _ _ =>
      rintro _ _ ⟨⟩
      exact ⟨[], .nil, rfl⟩
  | many _ _ _ inner others =>
      rintro _ _ ⟨⟩
      obtain ⟨pieces, made, same⟩ := others rfl
      exact ⟨_ :: pieces, .cons (inner rfl) made, by rw [List.take_add, same]; rfl⟩
  | flagged set _ ih =>
      intro _ _ matched
      obtain ⟨_, _, rfl, rfl, rfl⟩ := further_eq_some_iff.mp matched
      exact .inr ⟨_, _, by rw [Nat.add_comm, List.take_succ_cons], set, rfl, ih rfl⟩
  | flaggedUnset _ _ _ ih =>
      intro _ _ matched
      obtain ⟨_, _, rfl, rfl, rfl⟩ := further_eq_some_iff.mp matched
      exact .inl ⟨rfl, by rw [Nat.zero_add]; exact ih rfl⟩
  | operation _ read _ ih =>
      intro _ _ matched
      obtain ⟨_, _, rfl, rfl, rfl⟩ := further_eq_some_iff.mp matched
      exact ⟨_, _, List.take_add, writtenAs_of_look read, ih rfl⟩
  | map _ ih =>
      intro _ _ matched
      obtain ⟨_, _, rfl, rfl, rfl⟩ := further_eq_some_iff.mp matched
      exact ⟨_, rfl, by rw [Nat.zero_add]; exact ih rfl⟩
  | @located _ _ _ _ _ tokens _ _ consumes inner ih =>
      intro _ _ matched
      obtain ⟨value, more, rfl, rfl, rfl⟩ := further_eq_some_iff.mp matched
      -- What the body takes is not empty, so its first token is the one that gives the place.
      have some := inner.progress consumes rfl
      have inside := (inner.passes rfl).1
      rcases tokens with _ | ⟨first, rest⟩
      · exact absurd some (Nat.not_lt.mpr inside)
      · obtain ⟨count, rfl⟩ := Nat.exists_eq_succ_of_ne_zero (Nat.pos_iff_ne_zero.mp some)
        rw [Nat.zero_add]
        exact ⟨first, rest.take count, value, List.take_succ_cons, rfl, ih rfl⟩
  | _ =>
      intro _ _ matched
      cases matched

end CollectionSchema.Peg
