import Mathlib.Tactic.Common
import CollectionSchema.Proofs.Peg.Rule

/-!
# Terminals and operators as rules

A terminal either takes the first token or leaves notes about it, and which of them
it does is decided by that token alone.  An operator is one mark or two next to each
other; whether one is there is seen from the first token, and which one it is from
the token behind it as well.
-/

set_option autoImplicit false

namespace CollectionSchema.Peg

variable {α : Type}

/-! ## What is noted about a single token -/

/-- The notes of a token that is not what was asked for, given the token that is there. -/
def Terminal.misses (name : RuleName) : {α : Type} → Terminal α → Option Token → List Miss
  | _, .mark character, _ => [⟨0, false, name, .mark character⟩]
  | _, .word spelling, _ => [⟨0, false, name, .word spelling⟩]
  | _, .either first second, _ => [⟨0, false, name, .word first⟩, ⟨0, false, name, .word second⟩]
  | _, .identifier, _ => [⟨0, false, name, .identifier⟩]
  | _, .string, _ => [⟨0, false, name, .string⟩]
  | _, .number, none => [⟨0, false, .value, .number⟩]
  | _, .number, some token =>
      if token.kind = .number then [⟨0, true, .value, .integer⟩]
      else [⟨0, false, .value, .number⟩]
  | _, .decoratorName, _ => [⟨0, false, name, .decoratorName⟩]
  | _, .sortOrder, _ => [⟨0, false, name, .sortOrder⟩]
  | _, .basicType, _ => [⟨0, false, name, .basicType⟩]

theorem Terminal.misses_ne_nil (name : RuleName) (terminal : Terminal α) (token : Option Token) :
    terminal.misses name token ≠ [] := by
  cases terminal <;> rcases token with _ | token <;> simp only [misses] <;>
    first | exact List.cons_ne_nil _ _ | (split <;> exact List.cons_ne_nil _ _)

theorem Terminal.misses_position (name : RuleName) (terminal : Terminal α) (token : Option Token) :
    ∀ miss ∈ terminal.misses name token, miss.position = 0 := by
  cases terminal <;> rcases token with _ | token <;> simp only [misses] <;> grind

theorem Terminal.rule_of_read {name : RuleName} {terminal : Terminal α} {first : Token}
    {rest : List Token} {value : α} (read : terminal.read first = some value) :
    terminal.rule name (first :: rest) = ⟨[], some (value, 1)⟩ := by
  cases terminal <;> simp_all [rule, Terminal.read, Rule.mark, Rule.word, Rule.identifier,
    Rule.accept, Recognizer.rule, Rule.claim, Recognizer.decoratorName, Recognizer.sortOrder,
    Recognizer.basicType, Recognizer.ofWords, Grammar.integer]

theorem Terminal.rule_of_unread {name : RuleName} {terminal : Terminal α} {tokens : List Token}
    (unread : tokens.head?.bind terminal.read = none) :
    terminal.rule name tokens = ⟨terminal.misses name tokens.head?, none⟩ := by
  rcases tokens with _ | ⟨first, rest⟩
  · cases terminal <;> rfl
  · simp only [List.head?_cons, Option.bind_some] at unread
    cases terminal <;> simp_all [rule, Terminal.read, Rule.mark, Rule.word, Rule.identifier,
      Rule.accept, Recognizer.rule, Rule.claim, Recognizer.decoratorName, Recognizer.sortOrder,
      Recognizer.basicType, Recognizer.ofWords, Grammar.integer, misses]
    split <;> rfl

theorem Terminal.isEnd_of_read {terminal : Terminal α} {token : Token} {value : α}
    (read : terminal.read token = some value) : token.isEnd = false := by
  cases terminal <;> simp only [Terminal.read] at read <;>
    grind [Token.isSymbol, Token.isWord, Token.isEnd]

/-! ## What is seen of an operator -/

/-- An operator is one mark that spells it, or two; two are taken where they spell one. -/
theorem look_operator_cases {tokens : List Token} {operator : Operator} {taken : Nat}
    (read : Recognizer.operator.look tokens = some (operator, taken)) :
    (∃ first rest, tokens = first :: rest ∧ taken = 1 ∧ first.kind = .symbol ∧
      Operator.ofSpelling? first.lexeme = some operator ∧
      rest.head?.bind (Recognizer.pair? first) = none) ∨
    ∃ first second rest, tokens = first :: second :: rest ∧ taken = 2 ∧ first.kind = .symbol ∧
      second.kind = .symbol ∧ (Operator.ofSpelling? first.lexeme).isSome = true ∧
      Operator.ofSpelling? (first.lexeme ++ second.lexeme) = some operator := by
  rcases tokens with _ | ⟨first, rest⟩
  · cases read
  · simp only [Recognizer.operator] at read
    split at read
    case isFalse => cases read
    case isTrue symbol =>
      rcases single : Operator.ofSpelling? first.lexeme with _ | alone
      · rw [single] at read
        cases read
      · rw [single] at read
        rcases pair : rest.head?.bind (Recognizer.pair? first) with _ | double
        · rw [pair] at read
          cases read
          exact .inl ⟨first, rest, rfl, rfl, symbol, single, pair⟩
        · rw [pair] at read
          cases read
          rcases rest with _ | ⟨second, rest⟩
          · cases pair
          · simp only [List.head?_cons, Option.bind_some, Recognizer.pair?] at pair
            split at pair
            case isFalse => cases pair
            case isTrue also =>
              exact .inr ⟨first, second, rest, rfl, rfl, symbol, also, by rw [single]; rfl, pair⟩

/-- Whether an operator is there is seen from the first token. -/
theorem look_operator_eq_none_iff {tokens : List Token} :
    Recognizer.operator.look tokens = none ↔
      ∀ first ∈ tokens.head?, first.kind = .symbol → Operator.ofSpelling? first.lexeme = none := by
  rcases tokens with _ | ⟨first, rest⟩
  · simp [Recognizer.operator]
  · simp only [Recognizer.operator, List.head?_cons, Option.mem_some_iff, forall_eq']
    split
    case isFalse other => simp [other]
    case isTrue symbol =>
      rcases single : Operator.ofSpelling? first.lexeme with _ | alone
      · simp
      · rcases rest.head?.bind (Recognizer.pair? first) with _ | double <;> simp [symbol]

/-- The tokens of an operator and the one behind them decide what is seen. -/
theorem look_operator_congr {tokens others : List Token} {operator : Operator} {taken : Nat}
    (read : Recognizer.operator.look tokens = some (operator, taken))
    (same : others.take (taken + 1) = tokens.take (taken + 1)) :
    Recognizer.operator.look others = some (operator, taken) := by
  rcases look_operator_cases read with
    ⟨first, rest, rfl, rfl, symbol, single, pair⟩ |
    ⟨first, second, rest, rfl, rfl, symbol, also, single, double⟩
  · rcases others with _ | ⟨other, others⟩
    · cases same
    · have heads : others.head? = rest.head? := by
        rcases others with _ | ⟨_, _⟩ <;> rcases rest with _ | ⟨_, _⟩ <;> simp_all
      obtain rfl : other = first := by simpa using (List.cons.inj same).1
      simp [Recognizer.operator, symbol, single, heads, pair]
  · rcases others with _ | ⟨other, _ | ⟨next, others⟩⟩
    · cases same
    · simp at same
    · obtain ⟨alone, single⟩ := Option.isSome_iff_exists.mp single
      simp only [List.take_succ_cons, List.cons.injEq] at same
      obtain ⟨rfl, rfl, _⟩ := same
      simp [Recognizer.operator, Recognizer.pair?, symbol, also, single, double]

end CollectionSchema.Peg
