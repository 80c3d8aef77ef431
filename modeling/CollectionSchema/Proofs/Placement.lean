import CollectionSchema.Proofs.Conservation
import CollectionSchema.Proofs.Token.Lossless

/-!
# The places in a program

Every part of a program that comes from a text has the place of the first character
of its first token.  Tokens follow one another in the text, and the parts of a
program cover pieces of them one behind the other.  So the places of siblings
increase, and what is inside a part is not in front of it and is in front of
everything that stands behind the part.
-/

set_option autoImplicit false

namespace CollectionSchema

open Peg (beforeEnd declarations)
open SyntaxTree (placesOf)

/-! ## Trees in order -/

/-- Trees whose places are in the order of the text: nothing inside a part is in front of it, and
all of it is in front of everything in the trees behind the part. -/
inductive Ordered : List SyntaxTree → Prop
  | nil : Ordered []
  | leaf {sign : Sign} {others : List SyntaxTree} (behind : Ordered others) :
      Ordered (.leaf sign :: others)
  | part {place : Position} {pieces others : List SyntaxTree} (within : Ordered pieces)
      (inside : ∀ inner ∈ placesOf pieces, inner = place ∨ place.Precedes inner)
      (before : ∀ inner ∈ place :: placesOf pieces, ∀ other ∈ placesOf others, inner.Precedes other)
      (behind : Ordered others) : Ordered (.part place pieces :: others)

namespace Covers

variable {trees : List SyntaxTree} {tokens : List Token}

/-- Every place in trees is the place of a token that they cover. -/
theorem mem_positions (covers : Covers trees tokens) :
    ∀ place ∈ placesOf trees, place ∈ tokens.map Token.position := by
  induction covers with
  | nil => exact nofun
  | leaf _ _ behind =>
      intro place member
      rw [SyntaxTree.placesOf, SyntaxTree.places, List.nil_append] at member
      rw [List.map_append]
      exact List.mem_append_right _ (behind place member)
  | part _ _ within behind =>
      intro place member
      rw [SyntaxTree.placesOf, SyntaxTree.places, List.mem_append, List.mem_cons] at member
      rw [List.map_append]
      rcases member with (rfl | member) | member
      · exact List.mem_append_left _ (List.mem_map_of_mem List.mem_cons_self)
      · exact List.mem_append_left _ (within place member)
      · exact List.mem_append_right _ (behind place member)

/-- Trees that cover tokens in the order of the text are in this order themselves. -/
theorem ordered (covers : Covers trees tokens)
    (increasing : (tokens.map Token.position).Pairwise Position.Precedes) : Ordered trees := by
  induction covers with
  | nil => exact .nil
  | leaf _ _ behind =>
      rw [List.map_append, List.pairwise_append] at increasing
      exact .leaf (behind increasing.2.1)
  | @part first inside tokens pieces others within later ihWithin ihLater =>
      rw [List.map_append, List.pairwise_append] at increasing
      obtain ⟨here, behind, between⟩ := increasing
      have start := (List.pairwise_cons.mp here).1
      refine .part (ihWithin here) (fun inner member => ?_) (fun inner member other further => ?_)
        (ihLater behind)
      · rcases List.mem_cons.mp (within.mem_positions inner member) with same | after
        · exact .inl same
        · exact .inr (start inner after)
      · refine between inner ?_ other (later.mem_positions other further)
        rcases List.mem_cons.mp member with rfl | member
        · exact List.mem_cons_self
        · exact within.mem_positions inner member

end Covers

/-! ## Programs -/

/-- The trees of a program cover the tokens in front of the first end. -/
theorem covers_of_parse {tokens : List Token} {program : Program}
    (parsed : parse tokens = .ok program) : Covers program.trees (beforeEnd tokens) := by
  obtain ⟨last, tail, same, ended⟩ := exists_closed_eq tokens
  obtain ⟨_, run⟩ := ParseSession.run_of_parse parsed same
    (fun _ member => isEnd_of_mem_beforeEnd member) ended
  have made := run.made Peg.definition_covered rfl
  rw [List.take_left' rfl] at made
  exact Peg.Phrase.Covered.row Declaration.tree (.reference _) _ _ made

/-- A text that parses is cut into tokens, each with the place of its first character, and every
part of its program, at any depth, has the place of the first token that it is built from.  Siblings
have increasing places, and all that is inside a part lies between its place and that of the next
sibling. -/
theorem parseText_places {source : String} {program : Program}
    (parsed : parseText source = .ok program) :
    ∃ tokens last, tokenize source = .ok (tokens ++ [last]) ∧
      TokenStream.Splits [] source.toList ((tokens ++ [last]).map .ok) ∧
      Covers program.trees tokens ∧ Ordered program.trees := by
  rcases made : tokenize source with error | all
  · rw [parseText, made] at parsed
    cases parsed
  rw [parseText, made] at parsed
  obtain ⟨tokens, last, rfl, proper, ended⟩ := (made ▸ lexes_tokenize source).exists_ended rfl
  have items := TokenStream.eq_of_mapM made
  have splits := TokenStream.splits_takeItems source.toList (lexes_tokenize source) []
    rfl le_rfl
  have front : beforeEnd (tokens ++ [last]) = tokens := by
    rw [Peg.beforeEnd, List.takeWhile_append_of_pos fun token member => by
      rw [proper token member, Bool.not_false]]
    simp [ended]
  have covers := covers_of_parse parsed
  rw [front] at covers
  have placed : TokenStream.Splits [] source.toList ((tokens ++ [last]).map .ok) :=
    items ▸ splits
  have increasing := placed.increasing
  rw [List.map_map, List.map_append, List.pairwise_append] at increasing
  exact ⟨tokens, last, rfl, placed, covers, covers.ordered increasing.1⟩

/-- A function on its second line: the decorator in front of it gives it its place, the call and its
first argument are inside the expression, and the second argument follows on the next line. -/
theorem parseText_places_of_call :
    let source := "// f\n @call f() \x7b g(a,\n b); \x7d"
    let identifier := fun (line column : Nat) (name : String) =>
      Expression.single ⟨line, column⟩ (.identifier ⟨line, column⟩ name)
    let program : Program := ⟨[.function ⟨⟨2, 2⟩, [⟨⟨2, 2⟩, .call, []⟩], "f", [], none,
      [.simple ⟨⟨2, 14⟩, .expression (.single ⟨2, 14⟩
        (.call ⟨2, 14⟩ "g" [identifier 2 16 "a", identifier 3 2 "b"]))⟩]⟩]⟩
    ∃ tokens last, tokenize source = .ok (tokens ++ [last]) ∧
      TokenStream.Splits [] source.toList ((tokens ++ [last]).map .ok) ∧
      Covers program.trees tokens ∧ Ordered program.trees := by
  intro source identifier program
  have made : tokenize source = .ok [⟨.symbol, "@", ⟨2, 2⟩⟩, ⟨.identifier, "call", ⟨2, 3⟩⟩,
      ⟨.identifier, "f", ⟨2, 8⟩⟩, ⟨.symbol, "(", ⟨2, 9⟩⟩, ⟨.symbol, ")", ⟨2, 10⟩⟩,
      ⟨.symbol, "\x7b", ⟨2, 12⟩⟩, ⟨.identifier, "g", ⟨2, 14⟩⟩, ⟨.symbol, "(", ⟨2, 15⟩⟩,
      ⟨.identifier, "a", ⟨2, 16⟩⟩, ⟨.symbol, ",", ⟨2, 17⟩⟩, ⟨.identifier, "b", ⟨3, 2⟩⟩,
      ⟨.symbol, ")", ⟨3, 3⟩⟩, ⟨.symbol, ";", ⟨3, 4⟩⟩, ⟨.symbol, "\x7d", ⟨3, 6⟩⟩,
      Token.endAt ⟨3, 7⟩] := by
    decide +kernel
  have parsed : parseText source = .ok program := by
    rw [parseText, made]
    rfl
  exact parseText_places parsed

end CollectionSchema
