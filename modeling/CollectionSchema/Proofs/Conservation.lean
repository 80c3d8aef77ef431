import CollectionSchema.Proofs.Concatenation
import CollectionSchema.Proofs.Peg.Yield
import Mathlib.Data.List.TakeWhile

/-!
# No token is lost

The program of a list of tokens is written with exactly the tokens in front of the
first end of the input: each of them stands for one sign of the program, the signs
come in the order of the tokens, and no sign is without its tokens.  So nothing that
an abandoned alternative looked at is left out or used twice.
-/

set_option autoImplicit false

namespace CollectionSchema

open Peg (beforeEnd declarations)

/-- Closed tokens go on with an end behind those in front of the first end. -/
theorem exists_closed_eq (tokens : List Token) :
    ∃ last tail, closed tokens = beforeEnd tokens ++ last :: tail ∧ last.isEnd = true := by
  obtain ⟨front, final, same, ended⟩ := closed_ends tokens
  rcases rest : (closed tokens).dropWhile (fun token => !token.isEnd) with _ | ⟨last, tail⟩
  · have proper := List.dropWhile_eq_nil_iff.mp rest final (by simp [same])
    simp [ended] at proper
  · refine ⟨last, tail, ?_, ?_⟩
    · rw [← beforeEnd_closed, ← rest, beforeEnd, List.takeWhile_append_dropWhile]
    · have stops := List.head?_dropWhile_not (fun token : Token => !token.isEnd) (closed tokens)
      simpa [rest] using stops

theorem isEnd_of_mem_beforeEnd {tokens : List Token} {token : Token}
    (member : token ∈ beforeEnd tokens) : token.isEnd = false := by
  simpa using List.mem_takeWhile_imp member

/-- The tokens in front of the first end are the ones that the signs of the program stand for, piece
by piece and in their order. -/
theorem spells_of_parse {tokens : List Token} {program : Program}
    (parsed : parse tokens = .ok program) : Spells program.signs (beforeEnd tokens) := by
  obtain ⟨last, tail, same, ended⟩ := exists_closed_eq tokens
  obtain ⟨_, run⟩ := ParseSession.run_of_parse parsed same
    (fun _ member => isEnd_of_mem_beforeEnd member) ended
  have built := run.built rfl
  rw [List.take_left' rfl] at built
  exact Peg.Phrase.Yields.many (.reference _) _ _ built

/-- An index with a stated and an unstated order, a function with its word, an operator of two marks
and an integer with a zero in front; what stands behind the end does not count. -/
theorem spells_of_parse_of_index :
    let word := fun (text : String) (column : Nat) => (⟨.identifier, text, ⟨1, column⟩⟩ : Token)
    let mark := fun (text : String) (column : Nat) => (⟨.symbol, text, ⟨1, column⟩⟩ : Token)
    let tokens := [word "collection" 1, word "A" 12, mark "\x7b" 14, mark "@" 16, word "index" 17,
      mark "(" 22, mark "[" 23, word "a" 24, mark "," 25, word "asc" 27, mark "]" 30, mark "," 31,
      word "b" 33, mark ")" 34, mark ";" 35, word "function" 37, word "f" 46, mark "(" 47,
      mark ")" 48, mark "\x7b" 50, word "x" 52, mark "=" 54, mark "=" 55,
      ⟨.number, "07", ⟨1, 57⟩⟩, mark ";" 59, mark "\x7d" 61, mark "\x7d" 63, Token.endAt ⟨1, 64⟩,
      mark ";" 65]
    let signs : List Sign := [.word "collection", .word "A", .mark '\x7b', .mark '@', .word "index",
      .mark '(', .ascending "a", .mark ',', .ascending "b", .mark ')', .mark ';',
      .optionalWord "function", .word "f", .mark '(', .mark ')', .mark '\x7b', .word "x",
      .operator .equal, .number 7, .mark ';', .mark '\x7d', .mark '\x7d']
    ∃ program, parse tokens = .ok program ∧ program.signs = signs ∧
      Spells signs (tokens.take 27) := by
  intro word mark tokens signs
  have outcome : (parse tokens).map Program.signs = .ok signs := by decide +kernel
  cases parsed : parse tokens with
  | error failure =>
      rw [parsed] at outcome
      cases outcome
  | ok program =>
      rw [parsed] at outcome
      have same : program.signs = signs := Except.ok.inj outcome
      exact ⟨program, rfl, same, same ▸ spells_of_parse parsed⟩

end CollectionSchema
