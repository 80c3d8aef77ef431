import CollectionSchema.Proofs.Peg.Reading
import CollectionSchema.Proofs.Peg.SealedItem

/-!
# Alternatives that stand in front of a match

A symbol with several alternatives reads the later ones only where those in front of
them fail.  What is read for such an alternative says enough about the first tokens
to tell that the others fail: where a function is read there is neither a collection
nor a field, and where an index is read there is neither a field nor a function.
-/

set_option autoImplicit false

namespace CollectionSchema.Peg

open Phrase (behind before between braced separated Reads Fails)

variable {α β : Type} {name : RuleName} {tokens others rest : List Token} {misses : List Miss}
  {taken : Nat}

/-! ## Decorators in front of another token -/

/-- A decorator is read again in front of every token that does not open its argument. -/
theorem decorator_again {decorator : Decorator}
    (run : Run .decorator (definition .decorator) tokens misses (some (decorator, taken)))
    (same : others.take taken = tokens.take taken)
    (next : ∀ token ∈ (others.drop taken).head?, token.isSymbol '(' = false) :
    (definition .decorator).Reads .decorator others decorator taken := by
  obtain ⟨_ | ⟨_, count⟩, whole, matched⟩ := run.tried <;> cases matched
  rw [Nat.zero_add] at same next ⊢
  obtain ⟨first, _, _, _, rfl, mark, parts, rfl, rfl⟩ := whole.of_behind
  obtain ⟨_, _, _, _, _, _, word, argument, rfl, rfl, rfl⟩ := parts.of_sequence
  obtain ⟨rfl, rfl, second, rest, rfl, read⟩ := word.of_token
  rcases argument.tried with ⟨_, _, inside, matched⟩ | ⟨_, matched⟩ <;> cases matched
  · have bound := inside.between_le Brackets.balanced_parentheses rfl
    rw [Nat.zero_add] at run
    exact .steady run (shifted_lt (shifted_lt bound)) (Nat.le_refl _) same
  · obtain ⟨rest, rfl⟩ : ∃ rest, others = first :: second :: rest := by
      rcases others with _ | ⟨one, _ | ⟨two, others⟩⟩ <;> simp at same
      obtain ⟨rfl, rfl⟩ := same
      exact ⟨others, rfl⟩
    exact .located rfl (.behind mark (.sequence (.token read)
      (.optionalMissed (.behind (unread_mark next)))))

/-- Decorators are read again in front of every word. -/
theorem decorators_again {decorators : List Decorator} :
    ∀ {tokens others : List Token} {misses : List Miss} {taken : Nat},
      Run name (.many (.reference .decorator)) tokens misses (some (decorators, taken)) →
      others.take taken = tokens.take taken →
      (∀ token ∈ (others.drop taken).head?, token.kind = .identifier) →
      (Phrase.many (.reference .decorator)).Reads name others decorators taken := by
  induction decorators with
  | nil =>
      intro tokens others misses taken run _ next
      rcases run.tried with ⟨_, matched⟩ | ⟨_, _, _, _, _, _, _, _, _, matched⟩ <;> cases matched
      refine .manyEnd (.of_forecast rfl (forecast_decorator fun token head => ?_))
      exact isSymbol_of_kind (by rw [next token head]; decide) '@'
  | cons decorator decorators ih =>
      intro tokens others misses taken run same next
      rcases run.tried with
        ⟨_, matched⟩ | ⟨_, _, first, more, _, _, inner, behind, _, matched⟩ <;> cases matched
      rw [← List.drop_drop] at next
      have again := drop_of_take same first
      rw [Nat.add_sub_cancel_left] at again
      have others := ih behind again next
      refine .many rfl (.reference (decorator_again inner.tried
        (take_of_take (Nat.le_add_right first more) same) ?_)) others
      -- Behind a parenthesis there would be no more decorators, but a word follows them.
      intro token head
      by_contra parenthesis
      have mark : token.isSymbol '(' = true := Bool.not_eq_false _ |>.mp parenthesis
      obtain ⟨_, later⟩ := others
      obtain rfl := decorators_at_parenthesis later head mark
      have kind := next token head
      rw [(isSymbol_iff.mp mark).1] at kind
      cases kind

/-! ## The name of a function -/

theorem functionName_word {word named : Token} (is : word.isWord "function" = true)
    (kind : named.kind = .identifier) :
    functionName.Reads .function (word :: named :: rest) named.lexeme 2 :=
  .choiceFirst (.behind (read_word_iff.mpr is) (.token (by simp [Terminal.read, kind])))

/-- In front of a parenthesis, no name stands behind the word. -/
theorem functionName_word_fails {named opening : Token} (mark : opening.isSymbol '(' = true) :
    (behind (.word "function") (.token .identifier)).Fails .function
      (named :: opening :: rest) := by
  rcases is : named.isWord "function" with _ | _
  · exact .behind (by simp [Terminal.read, is])
  · have noName : opening.kind ≠ .identifier := by
      rw [(isSymbol_iff.mp mark).1]
      decide
    exact .behindFirst (read_word_iff.mpr is) (.token (by simp [Terminal.read, noName]))

theorem functionName_plain {named opening : Token} (kind : named.kind = .identifier)
    (mark : opening.isSymbol '(' = true) :
    functionName.Reads .function (named :: opening :: rest) named.lexeme 1 :=
  .choiceSecond (functionName_word_fails mark) (.token (by simp [Terminal.read, kind]))

/-- The phrase for a function behind its name. -/
def functionTail : Phrase (List Field × Option SchemaType × List Statement) :=
  .sequence (between '(' ')' (separated (.reference .field)))
    (.sequence (.optional (behind (.mark ':') (.reference .type)))
      (braced (.reference .statement)))

/-- Behind the name of a function stands a parenthesis. -/
theorem exists_head_of_functionTail
    {value : List Field × Option SchemaType × List Statement}
    (reads : functionTail.Reads .function tokens value taken) :
    ∃ opening ∈ tokens.head?, opening.isSymbol '(' = true := by
  obtain ⟨_, run⟩ := reads
  obtain ⟨_, _, _, _, _, _, parameters, _⟩ := run.of_sequence
  exact exists_head_of_between parameters

/-! ## Functions instead of collections and fields -/

/-- Where a function stands, there is no collection. -/
theorem collection_at_function {found : Option (Collection × Nat)} {decorators : List Decorator}
    {front : List Miss} {before : Nat}
    (run : Run .collection (definition .collection) tokens misses found)
    (decorated : Run name (.many (.reference .decorator)) tokens front (some (decorators, before)))
    (named : FunctionNamed (tokens.drop before)) : found = none := by
  obtain ⟨found, whole, rfl⟩ := run.tried
  rw [further_eq_none_iff]
  rcases whole.tried with ⟨rfl, _⟩ | ⟨_, _, _, _, found, left, right, _, rfl⟩
  · rfl
  rw [further_eq_none_iff]
  obtain ⟨_, matched⟩ := left.unique (decorated.under .collection)
  cases matched
  rcases right.behind_cases with ⟨_, rfl⟩ | ⟨first, rest, _, found, same, word, parts, _, rfl⟩
  · rfl
  rw [further_eq_none_iff]
  rcases parts.tried with ⟨rfl, _⟩ | ⟨_, _, _, _, _, name, _⟩
  · rfl
  obtain ⟨_, _, second, _, rfl, read⟩ := name.of_token
  exact absurd (kind_of_read_identifier read)
    (kind_of_second same (read_word_iff.mp word) named.names)

theorem collection_fails_at_function {function : Function}
    (reads : (definition .function).Reads .function tokens function taken) :
    (definition .collection).Fails .collection tokens := by
  obtain ⟨_, run⟩ := reads
  obtain ⟨_, _, _, decorated, _, _, named⟩ := FunctionNamed.of_function run
  exact Phrase.fails_of_runs rfl fun collection => collection_at_function collection decorated named

theorem field_fails_at_function {function : Function}
    (reads : (definition .function).Reads .function tokens function taken) :
    (definition .field).Fails .field tokens := by
  obtain ⟨_, run⟩ := reads
  obtain ⟨_, _, _, decorated, bound, _, named⟩ := FunctionNamed.of_function run
  exact Phrase.fails_of_runs rfl fun field => (field_at_function field decorated bound named).1

/-! ## Indexes instead of fields and functions -/

/-- What begins with decorators and goes on with a word fails where an index stands: the mark of the
index begins no decorator and is no word. -/
theorem decorated_fails_at_index {index : Index} {body : Phrase α}
    {build : Position → List Decorator × α → β}
    (wellFormed : (Phrase.located build (.sequence (.many (.reference .decorator)) body)).wellFormed
      = true)
    (words : ∀ first : Token, first.kind ≠ .identifier → body.forecast (some first) = .missed)
    (reads : (definition .index).Reads .index tokens index taken) :
    (Phrase.located build (.sequence (.many (.reference .decorator)) body)).Fails name tokens := by
  obtain ⟨_, run⟩ := reads
  obtain ⟨_, _, first, _, _, rfl, mark, other⟩ := index_lt run
  have noName : first.kind ≠ .identifier := by
    rw [(isSymbol_iff.mp mark).1]
    decide
  exact Phrase.fails_of_runs wellFormed fun decorated =>
    (decorated_at_index decorated mark other (words first noName)).1

theorem field_fails_at_index {index : Index}
    (reads : (definition .index).Reads .index tokens index taken) :
    (definition .field).Fails .field tokens := by
  refine decorated_fails_at_index rfl (fun first noName => ?_) reads
  simp [Phrase.forecast, Terminal.read, noName]

theorem function_fails_at_index {index : Index}
    (reads : (definition .index).Reads .index tokens index taken) :
    (definition .function).Fails .function tokens := by
  refine decorated_fails_at_index rfl (fun first noName => ?_) reads
  simp [Phrase.forecast, Phrase.behind, Terminal.read, Token.isWord, noName]

end CollectionSchema.Peg
