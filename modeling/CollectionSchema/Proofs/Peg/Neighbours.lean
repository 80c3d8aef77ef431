import CollectionSchema.Proofs.Peg.Follow
import Mathlib.Data.List.Chain

/-!
# Slashes in front of stars

Where a comment is opened and never closed, its two marks are tokens of their own,
a slash and a star behind it.  No match holds these two next to each other: only
an operator can end in a slash, and the operand behind it starts with no mark that
continues an operator.
-/

set_option autoImplicit false

namespace CollectionSchema.Peg

variable {α β : Type}

/-- Two tokens that look like the opening of a comment. -/
def OpensComment (first second : Token) : Prop :=
  first.isSymbol '/' = true ∧ second.isSymbol '*' = true

/-- Tokens among which no comment is opened, and of which the last is no slash. -/
structure Apart (tokens : List Token) : Prop where
  chain : tokens.IsChain fun first second => ¬ OpensComment first second
  last : ∀ token ∈ tokens.getLast?, token.isSymbol '/' = false

namespace Apart

theorem nil : Apart [] := ⟨.nil, nofun⟩

theorem single {token : Token} (other : token.isSymbol '/' = false) : Apart [token] := by
  refine ⟨.singleton token, ?_⟩
  rintro _ ⟨⟩
  exact other

theorem append {first second : List Token} (before : Apart first) (after : Apart second) :
    Apart (first ++ second) := by
  refine ⟨List.isChain_append.mpr ⟨before.chain, after.chain, ?_⟩, fun token member => ?_⟩
  · intro left atEnd right _ opens
    have slash := opens.1
    rw [before.last left atEnd] at slash
    cases slash
  · rw [List.getLast?_append] at member
    rcases atEnd : second.getLast? with _ | other
    · rw [atEnd] at member
      exact before.last token member
    · rw [atEnd] at member
      cases member
      exact after.last token atEnd

end Apart

/-- Whether a phrase does not ask for a mark. -/
def Phrase.avoids (character : Char) : {α : Type} → Phrase α → Bool
  | _, .token terminal => !terminal.sample.isSymbol character
  | _, .reference _ => true
  | _, .sequence first second | _, .choice first second =>
      first.avoids character && second.avoids character
  | _, .flagged other body => other != character && body.avoids character
  | _, .optional body | _, .many body | _, .operation body | _, .map _ body | _, .located _ body =>
      body.avoids character

theorem definition_avoids (symbol : Nonterminal α) :
    (definition symbol).avoids '/' = true := by
  cases symbol <;> rfl

theorem continues_of_star {token : Token} (star : token.isSymbol '*' = true) :
    Continues token := by
  obtain ⟨symbol, lexeme⟩ := isSymbol_iff.mp star
  refine ⟨⟨.symbol, "*", Position.start⟩, ?_⟩
  rw [Recognizer.pair?, if_pos symbol, lexeme]
  decide

/-- The tokens of an operator do not open a comment. -/
theorem chain_operator {tokens : List Token} {operator : Operator} {taken : Nat}
    (read : Recognizer.operator.look tokens = some (operator, taken)) :
    (tokens.take taken).IsChain fun first second => ¬ OpensComment first second := by
  rcases look_operator_cases read with
    ⟨first, rest, rfl, rfl, _⟩ | ⟨first, second, rest, rfl, rfl, _, _, _, double⟩
  · exact .singleton first
  · refine .cons_cons (fun opens => ?_) (.singleton second)
    rw [(isSymbol_iff.mp opens.1).2, (isSymbol_iff.mp opens.2).2] at double
    revert double
    cases operator <;> decide

/-- No match opens a comment. -/
theorem Run.apart {name : RuleName} {phrase : Phrase α} {tokens : List Token}
    {misses : List Miss} {found : Option (α × Nat)} (run : Run name phrase tokens misses found) :
    phrase.avoids '/' = true → phrase.Distinct →
      ∀ {value : α} {taken : Nat}, found = some (value, taken) → Apart (tokens.take taken) := by
  induction run with
  | @token _ _ terminal first rest _ read =>
      intro avoids _ _ _ matched
      cases matched
      have other : first.isSymbol '/' = false := by
        rw [Terminal.isSymbol_of_read read]
        exact Bool.not_eq_true' _ |>.mp avoids
      exact .single other
  | @reference _ _ symbol _ _ _ _ ih =>
      exact fun _ _ => ih (definition_avoids symbol) (definition_distinct symbol)
  | sequence _ _ ihLeft ihRight =>
      intro avoids distinct _ _ matched
      simp only [Phrase.avoids, Bool.and_eq_true] at avoids
      obtain ⟨_, _, rfl, _, rfl⟩ := further_eq_some_iff.mp matched
      rw [List.take_add]
      exact (ihLeft avoids.1 distinct.1 rfl).append (ihRight avoids.2 distinct.2 rfl)
  | choiceFirst _ ih =>
      intro avoids distinct
      simp only [Phrase.avoids, Bool.and_eq_true] at avoids
      exact ih avoids.1 distinct.1
  | choiceSecond _ _ _ ih =>
      intro avoids distinct
      simp only [Phrase.avoids, Bool.and_eq_true] at avoids
      exact ih avoids.2 distinct.2
  | optional _ ih =>
      intro avoids distinct _ _ matched
      cases matched
      exact ih avoids distinct rfl
  | optionalMissed _ _ | manyEnd _ _ =>
      intro _ _ _ _ matched
      cases matched
      exact .nil
  | many _ _ _ ihInner ihOthers =>
      intro avoids distinct _ _ matched
      cases matched
      rw [List.take_add]
      exact (ihInner avoids distinct rfl).append (ihOthers avoids distinct rfl)
  | @flagged _ _ _ _ first rest _ _ set _ ih =>
      intro avoids distinct _ _ matched
      simp only [Phrase.avoids, Bool.and_eq_true, bne_iff_ne] at avoids
      obtain ⟨_, more, rfl, _, rfl⟩ := further_eq_some_iff.mp matched
      rw [Nat.add_comm, List.take_succ_cons]
      exact (Apart.single (isSymbol_of_ne set avoids.1)).append (ih avoids.2 distinct.1 rfl)
  | flaggedUnset _ _ _ ih =>
      intro avoids distinct _ _ matched
      simp only [Phrase.avoids, Bool.and_eq_true] at avoids
      obtain ⟨_, _, rfl, _, rfl⟩ := further_eq_some_iff.mp matched
      rw [Nat.zero_add]
      exact ih avoids.2 distinct.1 rfl
  | @operation _ _ _ tokens _ taken _ _ consumes read inner ih =>
      intro avoids distinct _ _ matched
      obtain ⟨_, more, rfl, _, rfl⟩ := further_eq_some_iff.mp matched
      have operand := ih avoids distinct.1 rfl
      have progress := inner.progress consumes rfl
      have passed := (inner.passes rfl).1
      rw [List.take_add]
      refine ⟨(chain_operator read).append operand.chain ?_, ?_⟩
      · intro left _ right atStart opens
        rw [List.head?_take, if_neg (Nat.ne_of_gt progress)] at atStart
        refine inner.forecast.not_missed ?_
        rw [Option.mem_def.mp atStart]
        exact distinct.2 right (continues_of_star opens.2)
      · have some : ((tokens.drop taken).take more) ≠ [] := by
          refine List.ne_nil_of_length_pos ?_
          rw [List.length_take_of_le passed]
          exact progress
        rw [List.getLast?_append_of_ne_nil _ some]
        exact operand.last
  | map _ ih | located _ _ ih =>
      intro avoids distinct _ _ matched
      obtain ⟨_, _, rfl, _, rfl⟩ := further_eq_some_iff.mp matched
      rw [Nat.zero_add]
      exact ih avoids distinct rfl
  | _ => exact fun _ _ _ _ matched => nomatch matched

end CollectionSchema.Peg
