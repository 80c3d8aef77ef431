import CollectionSchema.Proofs.Peg.Inversion

/-!
# Making runs

Runs of the phrases that stand for something behind a word or a mark, made of the runs
of their parts.
-/

set_option autoImplicit false

namespace CollectionSchema.Peg

open Phrase (behind)

variable {α : Type} {name : RuleName} {tokens rest : List Token} {misses : List Miss}
  {first : Token}

/-! ## Tokens that are not there -/

theorem unread_mark {character : Char}
    (other : ∀ token ∈ tokens.head?, token.isSymbol character = false) :
    tokens.head?.bind (Terminal.mark character).read = none := by
  rcases tokens with _ | ⟨first, rest⟩
  · rfl
  · simp [Terminal.read, other first rfl]

theorem unread_of_missed {terminal : Terminal α}
    (run : Run name (.token terminal) tokens misses none) :
    tokens.head?.bind terminal.read = none := by
  cases run with
  | tokenMissed unread => exact unread

/-! ## Symbols -/

theorem Run.refer (symbol : Nonterminal α) {found : Option (α × Nat)}
    (inner : Run symbol.name (definition symbol) tokens misses found) :
    Run name (.reference symbol) tokens misses found :=
  .reference inner

/-! ## Behind a word or a mark -/

theorem Run.make_behind {terminal : Terminal Unit} {body : Phrase α} {found : Option (α × Nat)}
    (read : terminal.read first = some ()) (inner : Run name body rest misses found) :
    Run name (behind terminal body) (first :: rest) (misses.map (Miss.shift 1))
      (further id 1 found) := by
  have whole : Run name (behind terminal body) (first :: rest) _ _ :=
    .map (.sequence (.token read) inner)
  rcases found with _ | ⟨value, taken⟩
  · exact whole
  · rw [further_some, further_some, Nat.zero_add] at whole
    exact whole

theorem Run.make_behind_missed {terminal : Terminal Unit} {body : Phrase α}
    (unread : tokens.head?.bind terminal.read = none) :
    Run name (behind terminal body) tokens (terminal.misses name tokens.head?) none :=
  .map (.sequenceMissed (.tokenMissed unread))

/-! ## Decorators -/

/-- Decorators are read alike for all symbols that begin with them. -/
theorem Run.under {found : Option (List Decorator × Nat)}
    (run : Run name (.many (.reference .decorator)) tokens misses found) (other : RuleName) :
    Run other (.many (.reference .decorator)) tokens misses found := by
  have again := (Phrase.many (.reference .decorator)).run other rfl tokens
  have reply : (Phrase.many (.reference .decorator)).rule other tokens = ⟨misses, found⟩ :=
    run.reply
  rwa [reply] at again

end CollectionSchema.Peg
