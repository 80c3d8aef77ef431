import CollectionSchema.Proofs.Peg.Run

/-!
# Moments of a run

A run tells how a phrase turns out.  Here is what happens on the way: at each moment
some notes have been made, and the cursor stands behind some of the tokens.  The
alternatives that are given up later have their moments too, and so has the return
to the token from which the next alternative starts.

At no moment does the cursor stand behind the end of the input, and no note that
was made points behind it (`Reaches.inFront`).
-/

set_option autoImplicit false

namespace CollectionSchema.Peg

/-- While a phrase is tried on some tokens, there is a moment when these notes have been made and
the cursor stands behind this many of the tokens. -/
inductive Reaches : {α : Type} → RuleName → Phrase α → List Token → List Miss → Nat → Prop
  | begun {α : Type} {name : RuleName} {phrase : Phrase α} {tokens : List Token} :
      Reaches name phrase tokens [] 0
  | matched {α : Type} {name : RuleName} {phrase : Phrase α} {tokens : List Token}
      {misses : List Miss} {value : α} {taken : Nat}
      (run : Run name phrase tokens misses (some (value, taken))) :
      Reaches name phrase tokens misses taken
  /-- After a failure the cursor is back at the first token. -/
  | givenUp {α : Type} {name : RuleName} {phrase : Phrase α} {tokens : List Token}
      {misses : List Miss} (run : Run name phrase tokens misses none) :
      Reaches name phrase tokens misses 0
  /-- A token that is not what was asked for is noted at the cursor, once for each thing that was
  asked for. -/
  | noting {α : Type} {name : RuleName} {terminal : Terminal α} {tokens : List Token}
      {notes : List Miss} (unread : tokens.head?.bind terminal.read = none)
      (some : notes <+: terminal.misses name tokens.head?) :
      Reaches name (.token terminal) tokens notes 0
  | reference {α : Type} {name : RuleName} {symbol : Nonterminal α} {tokens : List Token}
      {notes : List Miss} {cursor : Nat}
      (inner : Reaches symbol.name (definition symbol) tokens notes cursor) :
      Reaches name (.reference symbol) tokens notes cursor
  | sequenceFirst {α β : Type} {name : RuleName} {first : Phrase α} {second : Phrase β}
      {tokens : List Token} {notes : List Miss} {cursor : Nat}
      (inner : Reaches name first tokens notes cursor) :
      Reaches name (.sequence first second) tokens notes cursor
  | sequenceSecond {α β : Type} {name : RuleName} {first : Phrase α} {second : Phrase β}
      {tokens : List Token} {misses notes : List Miss} {value : α} {taken cursor : Nat}
      (left : Run name first tokens misses (some (value, taken)))
      (inner : Reaches name second (tokens.drop taken) notes cursor) :
      Reaches name (.sequence first second) tokens (misses ++ notes.map (Miss.shift taken))
        (taken + cursor)
  | choiceFirst {α : Type} {name : RuleName} {first second : Phrase α} {tokens : List Token}
      {notes : List Miss} {cursor : Nat} (inner : Reaches name first tokens notes cursor) :
      Reaches name (.choice first second) tokens notes cursor
  | choiceSecond {α : Type} {name : RuleName} {first second : Phrase α} {tokens : List Token}
      {misses notes : List Miss} {cursor : Nat} (left : Run name first tokens misses none)
      (inner : Reaches name second tokens notes cursor) :
      Reaches name (.choice first second) tokens (misses ++ notes) cursor
  | optional {α : Type} {name : RuleName} {body : Phrase α} {tokens : List Token}
      {notes : List Miss} {cursor : Nat} (inner : Reaches name body tokens notes cursor) :
      Reaches name (.optional body) tokens notes cursor
  | manyFirst {α : Type} {name : RuleName} {body : Phrase α} {tokens : List Token}
      {notes : List Miss} {cursor : Nat} (inner : Reaches name body tokens notes cursor) :
      Reaches name (.many body) tokens notes cursor
  | manyOthers {α : Type} {name : RuleName} {body : Phrase α} {tokens : List Token}
      {misses notes : List Miss} {item : α} {taken cursor : Nat}
      (left : Run name body tokens misses (some (item, taken)))
      (inner : Reaches name (.many body) (tokens.drop taken) notes cursor) :
      Reaches name (.many body) tokens (misses ++ notes.map (Miss.shift taken)) (taken + cursor)
  | flagged {α : Type} {name : RuleName} {character : Char} {body : Phrase α} {first : Token}
      {rest : List Token} {notes : List Miss} {cursor : Nat}
      (set : first.isSymbol character = true) (inner : Reaches name body rest notes cursor) :
      Reaches name (.flagged character body) (first :: rest) (notes.map (Miss.shift 1)) (1 + cursor)
  | flaggedUnset {α : Type} {name : RuleName} {character : Char} {body : Phrase α}
      {tokens : List Token} {notes : List Miss} {cursor : Nat}
      (unset : ∀ first ∈ tokens.head?, first.isSymbol character = false)
      (inner : Reaches name body tokens notes cursor) :
      Reaches name (.flagged character body) tokens notes cursor
  | operation {α : Type} {name : RuleName} {operand : Phrase α} {tokens : List Token}
      {operator : Operator} {notes : List Miss} {taken cursor : Nat}
      (read : Recognizer.operator.look tokens = some (operator, taken))
      (inner : Reaches name operand (tokens.drop taken) notes cursor) :
      Reaches name (.operation operand) tokens (notes.map (Miss.shift taken)) (taken + cursor)
  | map {α β : Type} {name : RuleName} {build : α → β} {body : Phrase α} {tokens : List Token}
      {notes : List Miss} {cursor : Nat} (inner : Reaches name body tokens notes cursor) :
      Reaches name (.map build body) tokens notes cursor
  | located {α β : Type} {name : RuleName} {build : Position → α → β} {body : Phrase α}
      {tokens : List Token} {notes : List Miss} {cursor : Nat}
      (inner : Reaches name body tokens notes cursor) :
      Reaches name (.located build body) tokens notes cursor

/-- The cursor and all notes are in front of the end of the input. -/
structure InFront (tokens : List Token) (notes : List Miss) (cursor : Nat) : Prop where
  cursor : Passes tokens cursor
  noted : ∀ miss ∈ notes, Passes tokens miss.position

namespace InFront

variable {tokens : List Token} {misses notes : List Miss} {taken cursor : Nat}

theorem append (before : ∀ miss ∈ misses, Passes tokens miss.position)
    (inner : InFront tokens notes cursor) : InFront tokens (misses ++ notes) cursor :=
  ⟨inner.cursor, fun miss member =>
    (List.mem_append.mp member).elim (before miss) (inner.noted miss)⟩

/-- What is in front of the end behind some tokens is so with these tokens. -/
theorem behind (passed : Passes tokens taken)
    (inner : InFront (tokens.drop taken) notes cursor) :
    InFront tokens (notes.map (Miss.shift taken)) (taken + cursor) := by
  refine ⟨passed.add inner.cursor, fun miss member => ?_⟩
  obtain ⟨noted, inside, rfl⟩ := List.mem_map.mp member
  rw [Miss.shift_position]
  exact passed.add (inner.noted noted inside)

end InFront

/-- At every moment the cursor and all notes are in front of the end of the input. -/
theorem Reaches.inFront {α : Type} {name : RuleName} {phrase : Phrase α} {tokens : List Token}
    {notes : List Miss} {cursor : Nat} (moment : Reaches name phrase tokens notes cursor) :
    InFront tokens notes cursor := by
  induction moment with
  | begun => exact ⟨.zero _, List.forall_mem_nil _⟩
  | matched run => exact ⟨run.passes rfl, run.passes_misses⟩
  | givenUp run => exact ⟨.zero _, run.passes_misses⟩
  | noting _ some =>
      refine ⟨.zero _, fun miss member => ?_⟩
      rw [Terminal.misses_position _ _ _ miss (some.subset member)]
      exact .zero _
  | sequenceSecond left _ ih | manyOthers left _ ih =>
      exact .append left.passes_misses (.behind (left.passes rfl) ih)
  | choiceSecond left _ ih => exact .append left.passes_misses ih
  | flagged set _ ih =>
      exact .behind (.one (by grind [Token.isSymbol, Token.isEnd])) ih
  | operation read _ ih => exact .behind (look_operator_passes read).2 ih
  | reference _ ih | sequenceFirst _ ih | choiceFirst _ ih | optional _ ih | manyFirst _ ih
  | flaggedUnset _ _ ih | map _ ih | located _ ih => exact ih

end CollectionSchema.Peg
