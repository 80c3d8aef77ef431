import CollectionSchema.Proofs.Peg.Composition
import CollectionSchema.Proofs.Peg.Making
import CollectionSchema.Proofs.Peg.Sealed

/-!
# Items are sealed

A part of a collection that was read has not been looked past, as a declaration has
not.  A field ends in a semicolon, and only the type in front of it could have gone on.
Where a function stands, a field is given up at the parenthesis or at the name; where
an index stands, a field and a function are given up at the word that introduces it.
-/

set_option autoImplicit false

namespace CollectionSchema.Peg

open Phrase (behind before between braced separated)

variable {α β : Type} {tokens : List Token} {misses : List Miss} {taken : Nat}

/-! ## Fields -/

/-- A mark that may be missing does not move what is noted behind it beyond what is taken. -/
theorem flagged_le {name : RuleName} {character : Char} {body : Phrase α} {value : Bool × α}
    (run : Run name (.flagged character body) tokens misses (some (value, taken)))
    (bound : ∀ {rest : List Token} {inner : List Miss} {value : α} {count : Nat},
      Run name body rest inner (some (value, count)) →
      rest.drop count = tokens.drop taken → ∀ miss ∈ inner, miss.position ≤ count) :
    ∀ miss ∈ misses, miss.position ≤ taken := by
  rcases run.tried with ⟨first, rest, inner, _ | ⟨value, count⟩, rfl, _, inside, rfl, matched⟩ |
    ⟨_ | ⟨value, count⟩, inside, matched⟩ <;> cases matched
  · refine shifted_le (bound inside ?_)
    rw [Nat.add_comm, List.drop_succ_cons]
  · rw [Nat.zero_add] at bound ⊢
    exact bound inside rfl

/-- A field is not looked past, if nothing follows that its type could go on with. -/
theorem field_le {field : Field}
    (run : Run .field (definition .field) tokens misses (some (field, taken)))
    (next : EndsType (tokens.drop taken).head?) : ∀ miss ∈ misses, miss.position ≤ taken := by
  obtain ⟨_, whole⟩ := run.of_located
  obtain ⟨_, _, _, _, before, _, decorators, named, rfl, rfl, rfl⟩ := whole.of_sequence
  obtain ⟨_, _, _, _, _, after, name, typed, rfl, rfl, rfl⟩ := named.of_sequence
  obtain ⟨rfl, rfl, first, rest, same, read⟩ := name.of_token
  have decoratorBound := decorators_le decorators (by
    rw [same]
    rintro _ ⟨⟩
    exact kind_of_read_identifier read)
  have typeBound := flagged_le typed fun inner sameEnd => by
    obtain ⟨_, others, _, count, rfl, _, type, rfl, rfl⟩ := inner.of_behind
    refine shifted_le (type_le type.tried ?_)
    rw [Nat.add_comm 1 count, List.drop_succ_cons, List.drop_drop, List.drop_drop] at sameEnd
    rwa [sameEnd]
  intro miss member
  rcases List.mem_append.mp member with member | member
  · exact Nat.le_trans (decoratorBound miss member) (Nat.le_add_right _ _)
  · exact shifted_le (shifted_le typeBound) miss member

/-- A field with a semicolon behind it is sealed. -/
theorem ended_field_lt {name : RuleName} {field : Field}
    (run : Run name (.before (.reference .field) (.mark ';')) tokens misses (some (field, taken))) :
    ∀ miss ∈ misses, miss.position < taken := by
  obtain ⟨_, _, _, inner, same, read, rfl⟩ := run.of_before
  have bound := field_le inner.tried (.of_mark same (read_mark_iff.mp read) (by decide) (by decide))
  exact fun miss member => Nat.lt_succ_of_le (bound miss member)

/-! ## Where a function stands -/

/-- The name of a function, with the word in front of it or without, and the parenthesis behind. -/
inductive FunctionNamed : List Token → Prop
  | word {word name opening : Token} {rest : List Token} (is : word.isWord "function" = true)
      (kind : name.kind = .identifier) (mark : opening.isSymbol '(' = true) :
      FunctionNamed (word :: name :: opening :: rest)
  | plain {name opening : Token} {rest : List Token} (kind : name.kind = .identifier)
      (mark : opening.isSymbol '(' = true) : FunctionNamed (name :: opening :: rest)

/-- The phrase for the name of a function. -/
def functionName : Phrase String :=
  .choice (behind (.word "function") (.token .identifier)) (.token .identifier)

/-- The phrase for a function behind its decorators. -/
def functionParts : Phrase (String × List Field × Option SchemaType × List Statement) :=
  .sequence functionName
    (.sequence (between '(' ')' (separated (.reference .field)))
      (.sequence (.optional (behind (.mark ':') (.reference .type)))
        (braced (.reference .statement))))

namespace FunctionNamed

theorem of_run {name : String}
    (run : Run .function functionName tokens misses (some (name, taken)))
    (next : ∃ token ∈ (tokens.drop taken).head?, token.isSymbol '(' = true) :
    FunctionNamed tokens := by
  obtain ⟨opening, here, mark⟩ := next
  obtain ⟨rest, same⟩ := List.head?_eq_some_iff.mp here
  rcases run.tried with ⟨_, named⟩ | ⟨_, _, _, plain, _⟩
  · obtain ⟨word, _, _, _, rfl, is, name, _, rfl⟩ := named.of_behind
    obtain ⟨_, rfl, first, _, rfl, read⟩ := name.of_token
    simp only [List.drop_succ_cons, List.drop_zero] at same
    subst same
    exact .word (read_word_iff.mp is) (kind_of_read_identifier read) mark
  · obtain ⟨_, rfl, first, _, rfl, read⟩ := plain.of_token
    simp only [List.drop_succ_cons, List.drop_zero] at same
    subst same
    exact .plain (kind_of_read_identifier read) mark

/-- Behind the first word there is a name or a parenthesis. -/
theorem exists_cons (named : FunctionNamed tokens) :
    ∃ first second rest, tokens = first :: second :: rest ∧ first.kind = .identifier ∧
      (second.kind = .identifier ∨ second.isSymbol '(' = true) := by
  cases named with
  | word is kind _ => exact ⟨_, _, _, rfl, kind_of_isWord is, .inl kind⟩
  | plain kind mark => exact ⟨_, _, _, rfl, kind, .inr mark⟩

theorem isSymbol_second {second : Token} {character : Char}
    (known : second.kind = .identifier ∨ second.isSymbol '(' = true) (other : '(' ≠ character) :
    second.isSymbol character = false := by
  rcases known with kind | mark
  · exact isSymbol_of_kind (by rw [kind]; decide) character
  · exact isSymbol_of_ne mark other

theorem names (named : FunctionNamed tokens) : NamesFunction tokens := by
  cases named with
  | word is _ _ => exact ⟨by rintro _ ⟨⟩; exact kind_of_isWord is, .inl ⟨_, rfl, is⟩⟩
  | plain kind mark => exact ⟨by rintro _ ⟨⟩; exact kind, .inr ⟨_, rfl, mark⟩⟩

end FunctionNamed

/-- Where a function stands, a field is given up behind its first word. -/
theorem field_at_function {found : Option (Field × Nat)} {decorators : List Decorator}
    {front : List Miss} {before : Nat}
    (run : Run .field (definition .field) tokens misses found)
    (decorated : Run .function (.many (.reference .decorator)) tokens front
      (some (decorators, before)))
    (bound : ∀ miss ∈ front, miss.position ≤ before)
    (named : FunctionNamed (tokens.drop before)) :
    found = none ∧ ∀ miss ∈ misses, miss.position ≤ before + 1 := by
  obtain ⟨first, second, rest, same, kind, known⟩ := named.exists_cons
  have read : Terminal.identifier.read first = some first.lexeme := by
    simp [Terminal.read, kind]
  have typed : Run .field (.flagged '?' (behind (.mark ':') (.reference .type))) (second :: rest)
      _ none := .flaggedUnset rfl (by
        rintro _ ⟨⟩
        exact FunctionNamed.isSymbol_second known (by decide))
      (.map (.sequenceMissed (.tokenMissed (by
        simp [Terminal.read, FunctionNamed.isSymbol_second known (show '(' ≠ ':' by decide)]))))
  have name : Run .field (.sequence (.token .identifier)
      (.flagged '?' (behind (.mark ':') (.reference .type)))) (first :: second :: rest) _ none :=
    .sequence (.token read) typed
  rw [← same] at name
  have whole : Run .field (definition .field) tokens _ none :=
    .located rfl (.sequence (decorated.under .field) name)
  obtain ⟨rfl, rfl⟩ := run.unique whole
  refine ⟨rfl, fun miss member => ?_⟩
  rcases List.mem_append.mp member with member | member
  · exact Nat.le_succ_of_le (bound miss member)
  · rw [List.nil_append] at member
    have here : ∀ miss ∈ (Terminal.mark ':').misses .field (some second), miss.position ≤ 0 :=
      fun miss member => Nat.le_of_eq (Terminal.misses_position _ _ _ miss member)
    exact shifted_le (shifted_le here) miss member

/-! ## Where an index stands -/

/-- In front of a mark that begins no decorator there are none. -/
theorem no_decorators (name : RuleName) {first second : Token} (rest : List Token)
    (mark : first.isSymbol '@' = true) (other : Terminal.decoratorName.read second = none) :
    ∃ notes, (∀ miss ∈ notes, miss.position ≤ 1) ∧
      Run name (.many (.reference .decorator)) (first :: second :: rest) notes (some ([], 0)) := by
  have decorator : Run .decorator (definition .decorator) (first :: second :: rest) _ none :=
    .located rfl (.make_behind (read_mark_iff.mpr mark)
      (.sequenceMissed (.tokenMissed (by simpa using other))))
  exact ⟨_, shifted_le fun miss member => Nat.le_of_eq (Terminal.misses_position _ _ _ miss member),
    .manyEnd (.refer .decorator decorator)⟩

/-- Where an index stands, what begins with decorators is given up at the word behind the mark. -/
theorem decorated_at_index {name : RuleName} {body : Phrase α}
    {build : Position → List Decorator × α → β} {first second : Token} {rest : List Token}
    {found : Option (β × Nat)}
    (run : Run name (.located build (.sequence (.many (.reference .decorator)) body))
      (first :: second :: rest) misses found)
    (mark : first.isSymbol '@' = true) (other : Terminal.decoratorName.read second = none)
    (missed : body.forecast (some first) = .missed) :
    found = none ∧ ∀ miss ∈ misses, miss.position ≤ 1 := by
  obtain ⟨_, whole, rfl⟩ := run.tried
  obtain ⟨notes, bound, without⟩ := no_decorators name rest mark other
  rcases whole.tried with ⟨rfl, left⟩ | ⟨_, _, _, later, found, left, right, rfl, rfl⟩
  · cases (left.unique without).2
  obtain ⟨rfl, matched⟩ := left.unique without
  cases matched
  rw [List.drop_zero] at right
  have clear : body.forecast (first :: second :: rest).head? ≠ .unclear := by
    rw [List.head?_cons, missed]
    exact nofun
  obtain rfl : found = none := by
    have holds := right.forecast
    rwa [List.head?_cons, missed] at holds
  refine ⟨rfl, fun miss member => ?_⟩
  rw [Miss.map_shift_zero] at member
  rcases List.mem_append.mp member with member | member
  · exact bound miss member
  · rw [right.noted_here clear miss member]
    exact Nat.zero_le 1

/-- The words for an index are no names of decorators. -/
theorem unread_decoratorName {token : Token} {plain : Bool}
    (read : (Terminal.either "index" "unique").read token = some plain) :
    Terminal.decoratorName.read token = none := by
  have lexeme : token.lexeme = "index" ∨ token.lexeme = "unique" := by
    simp only [Terminal.read] at read
    split at read
    case isTrue word => exact .inl (isWord_iff.mp word).2
    case isFalse =>
      split at read
      case isTrue word => exact .inr (isWord_iff.mp word).2
      case isFalse => cases read
  rw [Terminal.read]
  split
  case isTrue =>
    rcases lexeme with lexeme | lexeme <;>
      rw [lexeme] <;> decide
  case isFalse => rfl

/-- An index is sealed, and it begins with the mark of a decorator but with a word of its own. -/
theorem index_lt {index : Index}
    (run : Run .index (definition .index) tokens misses (some (index, taken))) :
    (∀ miss ∈ misses, miss.position < taken) ∧ 1 < taken ∧ ∃ first second rest,
      tokens = first :: second :: rest ∧ first.isSymbol '@' = true ∧
      Terminal.decoratorName.read second = none := by
  obtain ⟨_, whole⟩ := run.of_located
  obtain ⟨first, _, _, _, rfl, mark, parts, rfl, rfl⟩ := whole.of_behind
  obtain ⟨_, _, _, _, _, _, word, fields, rfl, rfl, rfl⟩ := parts.of_sequence
  obtain ⟨rfl, rfl, second, rest, rfl, read⟩ := word.of_token
  have bound := fields.between_le Brackets.balanced_parentheses rfl
  exact ⟨shifted_lt (shifted_lt bound), by omega, first, second, rest, rfl, read_mark_iff.mp mark,
    unread_decoratorName read⟩

/-- Where a function stands, an index is given up at its first word or behind the mark in front of
it. -/
theorem index_at_function {name : RuleName} {found : Option (Index × Nat)}
    {decorators : List Decorator} {front : List Miss} {before : Nat}
    (run : Run .index (definition .index) tokens misses found)
    (decorated : Run name (.many (.reference .decorator)) tokens front (some (decorators, before)))
    (named : FunctionNamed (tokens.drop before)) :
    found = none ∧ ∀ miss ∈ misses, miss.position ≤ 1 := by
  obtain ⟨_, whole, rfl⟩ := run.tried
  rcases whole.behind_cases with
    ⟨rfl, rfl⟩ | ⟨first, rest, inner, result, rfl, mark, parts, rfl, rfl⟩
  · refine ⟨rfl, fun miss member => ?_⟩
    rw [Terminal.misses_position _ _ _ miss member]
    exact Nat.zero_le 1
  rcases parts.tried with ⟨rfl, word⟩ | ⟨_, _, _, _, _, word, _⟩
  · exact ⟨rfl, shifted_le fun miss member =>
      Nat.le_of_eq (word.position_of_token_missed miss member)⟩
  · -- A word for an index would have to be the name of a function or of its first decorator.
    obtain ⟨_, _, second, others, rfl, read⟩ := word.of_token
    obtain ⟨_, _, without⟩ :=
      no_decorators name others (read_mark_iff.mp mark) (unread_decoratorName read)
    obtain ⟨_, matched⟩ := decorated.unique without
    cases matched
    obtain ⟨_, _, _, same, kind, _⟩ := named.exists_cons
    cases same
    rw [(isSymbol_iff.mp (read_mark_iff.mp mark)).1] at kind
    cases kind

/-! ## Items -/

/-- How a function names itself behind its decorators. -/
theorem FunctionNamed.of_function {function : Function}
    (run : Run .function (definition .function) tokens misses (some (function, taken))) :
    ∃ decorators front before,
      Run .function (.many (.reference .decorator)) tokens front (some (decorators, before)) ∧
      (∀ miss ∈ front, miss.position ≤ before) ∧ before + 1 < taken ∧
      FunctionNamed (tokens.drop before) := by
  obtain ⟨_, _, front, before, decorators, bound, inside, _⟩ := function_lt run
  obtain ⟨_, whole⟩ := run.of_located
  obtain ⟨_, _, _, _, _, _, again, parts, rfl, rfl, rfl⟩ := whole.of_sequence
  obtain ⟨rfl, matched⟩ := decorators.unique again
  cases matched
  obtain ⟨_, _, _, _, _, _, name, rest, rfl, rfl, rfl⟩ := parts.of_sequence
  obtain ⟨_, _, _, _, _, _, parameters, _, rfl, rfl, rfl⟩ := rest.of_sequence
  exact ⟨_, front, before, again, bound, inside, .of_run name (exists_head_of_between parameters)⟩

/-- What stands in front of a semicolon has failed where its body fails. -/
theorem before_missed {name : RuleName} {body : Phrase α} {terminal : Terminal Unit}
    {found : Option (β × Nat)} {build : α → β}
    (run : Run name (.map build (.before body terminal)) tokens misses found)
    (missed : ∀ {inner : List Miss} {found : Option (α × Nat)}, Run name body tokens inner found →
      found = none ∧ ∀ miss ∈ inner, miss.position ≤ taken) :
    found = none ∧ ∀ miss ∈ misses, miss.position ≤ taken := by
  obtain ⟨_, whole, rfl⟩ := run.tried
  obtain ⟨_, parts, rfl⟩ := whole.tried
  rcases parts.tried with ⟨rfl, inner⟩ | ⟨_, _, _, _, _, inner, _⟩
  · exact ⟨rfl, (missed inner).2⟩
  · cases (missed inner).1

/-- An item is sealed: nothing behind it was looked at. -/
theorem item_lt {item : Item}
    (run : Run .item (definition .item) tokens misses (some (item, taken))) :
    ∀ miss ∈ misses, miss.position < taken := by
  rcases run.tried with ⟨_, field⟩ | ⟨_, _, field, others, rfl⟩
  · obtain ⟨_, ended, _⟩ := field.of_map
    exact ended_field_lt ended
  rcases others.tried with ⟨_, function⟩ | ⟨_, _, function, index, rfl⟩
  · obtain ⟨_, inner, _⟩ := function.of_map
    obtain ⟨bound, _⟩ := function_lt inner.tried
    obtain ⟨_, _, before, decorators, decoratorBound, inside, named⟩ :=
      FunctionNamed.of_function inner.tried
    obtain ⟨_, fieldBound⟩ := before_missed field fun inner =>
      field_at_function inner.tried decorators decoratorBound named
    intro miss member
    rcases List.mem_append.mp member with member | member
    · exact Nat.lt_of_le_of_lt (fieldBound miss member) inside
    · exact bound miss member
  · obtain ⟨_, ended, _⟩ := index.of_map
    obtain ⟨count, _, _, inner, _, _, rfl⟩ := ended.of_before
    obtain ⟨bound, inside, first, second, rest, rfl, mark, other⟩ := index_lt inner.tried
    have noName : first.kind ≠ .identifier := by
      rw [(isSymbol_iff.mp mark).1]
      decide
    obtain ⟨_, fieldBound⟩ := before_missed field fun inner =>
      decorated_at_index inner.tried mark other (by simp [Phrase.forecast, Terminal.read, noName])
    obtain ⟨_, inFunction, _⟩ := function.tried
    obtain ⟨_, functionBound⟩ := decorated_at_index inFunction.tried mark other
      (by simp [Phrase.forecast, Phrase.behind, Terminal.read, Token.isWord, noName])
    intro miss member
    rcases List.mem_append.mp member with member | member
    · have := fieldBound miss member
      omega
    · rcases List.mem_append.mp member with member | member
      · have := functionBound miss member
        omega
      · exact Nat.lt_succ_of_lt (bound miss member)

/-! ## Where a collection stands -/

/-- Where a collection stands, a function is given up behind the word that introduces it. -/
theorem function_at_collection {found : Option (Function × Nat)} {decorators : List Decorator}
    {front : List Miss} {before : Nat} {word name : Token} {rest : List Token}
    (run : Run .function (definition .function) tokens misses found)
    (decorated : Run .collection (.many (.reference .decorator)) tokens front
      (some (decorators, before)))
    (bound : ∀ miss ∈ front, miss.position ≤ before)
    (same : tokens.drop before = word :: name :: rest) (is : word.isWord "collection" = true)
    (kind : name.kind = .identifier) :
    found = none ∧ ∀ miss ∈ misses, miss.position ≤ before + 1 := by
  obtain ⟨wordKind, lexeme⟩ := isWord_iff.mp is
  have read : Terminal.identifier.read word = some word.lexeme := by
    simp [Terminal.read, wordKind]
  have other : (Terminal.word "function").read word = none := by
    simp [Terminal.read, Token.isWord, lexeme]
  have named : Run .function functionName (word :: name :: rest) _ _ :=
    .choiceSecond (.make_behind_missed (by simpa using other)) (.token read)
  have noMark : ∀ token ∈ (name :: rest).head?, token.isSymbol '(' = false := by
    rintro _ ⟨⟩
    exact isSymbol_of_kind (by rw [kind]; decide) '('
  have parts : Run .function functionParts (word :: name :: rest) _ none :=
    .sequence named (.sequenceMissed (.make_behind_missed (unread_mark noMark)))
  rw [← same] at parts
  have whole : Run .function (definition .function) tokens _ none :=
    .located rfl (.sequence (decorated.under .function) parts)
  obtain ⟨rfl, rfl⟩ := run.unique whole
  refine ⟨rfl, fun miss member => ?_⟩
  rcases List.mem_append.mp member with member | member
  · exact Nat.le_succ_of_le (bound miss member)
  · refine shifted_le (fun miss member => ?_) miss member
    rcases List.mem_append.mp member with member | member
    · rw [List.append_nil] at member
      rw [Terminal.misses_position _ _ _ miss member]
      exact Nat.zero_le 1
    · exact shifted_le (fun miss member =>
        Nat.le_of_eq (Terminal.misses_position _ _ _ miss member)) miss member

end CollectionSchema.Peg
