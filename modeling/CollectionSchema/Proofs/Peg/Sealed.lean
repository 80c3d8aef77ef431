import CollectionSchema.Proofs.Peg.Nesting

/-!
# Declarations are sealed

A declaration that was read has not been looked past: everything that was tried on
the way, also what was given up, was tried in front of its last token.  Between
brackets this follows from nesting.  In front of the first bracket, and between the
parameters of a function and its body, it has to be seen that what was given up
had come no further than what was taken in its place.
-/

set_option autoImplicit false

namespace CollectionSchema.Peg

variable {α β : Type}

/-! ## Failures at the first token -/

/-- Where the next token alone tells how a phrase turns out, all notes are about that token. -/
theorem Run.noted_here {name : RuleName} {phrase : Phrase α} {tokens : List Token}
    {misses : List Miss} {found : Option (α × Nat)} (run : Run name phrase tokens misses found) :
    phrase.forecast tokens.head? ≠ .unclear → ∀ miss ∈ misses, miss.position = 0 := by
  induction run with
  | token _ =>
      intro _ _ member
      cases member
  | tokenMissed _ => exact fun _ => Terminal.misses_position _ _ _
  | @reference _ _ symbol tokens _ _ _ ih =>
      intro clear
      rw [Phrase.forecast] at clear
      split at clear
      case isTrue => exact absurd rfl clear
      case isFalse other =>
        exact ih (by simp [definition_forecast symbol (Bool.eq_false_iff.mpr other)])
  | @sequenceMissed _ _ _ first _ tokens _ _ ih =>
      intro clear
      rw [Phrase.forecast] at clear
      rcases ahead : first.forecast tokens.head? with _ | _ | _ <;> rw [ahead] at ih clear
      · exact ih (by simp)
      · exact ih (by simp)
      · exact absurd rfl clear
  | @sequence _ _ _ first second tokens _ _ _ _ _ left right ihLeft ihRight =>
      intro clear
      rw [Phrase.forecast] at clear
      have holds := left.forecast
      rcases ahead : first.forecast tokens.head? with _ | _ | _ <;>
        rw [ahead] at ihLeft clear holds
      · cases holds
      · obtain ⟨_, ⟨⟩⟩ := holds
        rw [Miss.map_shift_zero]
        intro miss member
        exact (List.mem_append.mp member).elim (ihLeft (by simp) miss) (ihRight clear miss)
      · exact absurd rfl clear
  | @choiceFirst _ _ first _ tokens _ _ left ih =>
      intro clear
      rw [Phrase.forecast] at clear
      have holds := left.forecast
      rcases ahead : first.forecast tokens.head? with _ | _ | _ <;> rw [ahead] at ih clear holds
      · cases holds
      · exact ih (by simp)
      · exact absurd rfl clear
  | @choiceSecond _ _ first _ tokens _ _ _ left _ ihLeft ihRight =>
      intro clear
      rw [Phrase.forecast] at clear
      have holds := left.forecast
      rcases ahead : first.forecast tokens.head? with _ | _ | _ <;>
        rw [ahead] at ihLeft clear holds
      · intro miss member
        exact (List.mem_append.mp member).elim (ihLeft (by simp) miss) (ihRight clear miss)
      · obtain ⟨_, ⟨⟩⟩ := holds
      · exact absurd rfl clear
  | @optional _ _ body tokens _ _ _ _ ih | @optionalMissed _ _ body tokens _ _ ih
  | @manyEnd _ _ body tokens _ _ ih =>
      intro clear
      rw [Phrase.forecast] at clear
      rcases ahead : body.forecast tokens.head? with _ | _ | _ <;> rw [ahead] at ih clear
      · exact ih (by simp)
      · exact absurd rfl clear
      · exact absurd rfl clear
  | @many _ _ body tokens _ _ _ _ _ _ _ inner _ _ _ =>
      intro clear
      rw [Phrase.forecast] at clear
      have holds := inner.forecast
      rcases ahead : body.forecast tokens.head? with _ | _ | _ <;> rw [ahead] at clear holds
      · cases holds
      · exact absurd rfl clear
      · exact absurd rfl clear
  | flagged set _ _ =>
      intro clear
      rw [Phrase.forecast, List.head?_cons, Option.any_some, if_pos set] at clear
      exact absurd rfl clear
  | @flaggedUnset _ _ _ body tokens _ _ _ _ _ ih =>
      intro clear
      rw [Phrase.forecast] at clear
      split at clear
      case isTrue => exact absurd rfl clear
      case isFalse =>
        rcases ahead : body.forecast tokens.head? with _ | _ | _ <;> rw [ahead] at ih clear
        · exact ih (by simp)
        · exact absurd rfl clear
        · exact absurd rfl clear
  | operationMissed _ =>
      intro _ miss member
      rw [List.mem_singleton.mp member]
  | operation _ read _ _ =>
      intro clear
      rcases look_operator_cases read with
        ⟨first, rest, rfl, rfl, symbol, single, _⟩ |
        ⟨first, second, rest, rfl, rfl, symbol, _, single, _⟩ <;>
        simp [Phrase.forecast, isOperator, symbol, single] at clear
  | map _ ih | located _ _ ih => exact ih

theorem read_mark_iff {character : Char} {token : Token} :
    (Terminal.mark character).read token = some () ↔ token.isSymbol character = true := by
  simp [Terminal.read]

theorem read_word_iff {spelling : String} {token : Token} :
    (Terminal.word spelling).read token = some () ↔ token.isWord spelling = true := by
  simp [Terminal.read]

theorem kind_of_isWord {token : Token} {spelling : String} (word : token.isWord spelling = true) :
    token.kind = .identifier := by
  simp only [Token.isWord, Bool.and_eq_true, beq_iff_eq] at word
  exact word.1

theorem kind_of_read_identifier {token : Token} {text : String}
    (read : Terminal.identifier.read token = some text) : token.kind = .identifier := by
  rw [Terminal.read] at read
  split at read
  case isTrue kind => exact kind
  case isFalse => cases read

theorem isSymbol_of_kind {token : Token} (kind : token.kind ≠ .symbol) (character : Char) :
    token.isSymbol character = false :=
  Bool.eq_false_iff.mpr fun mark => kind (isSymbol_iff.mp mark).1

/-- What starts with a mark is not looked into where another token stands. -/
theorem Run.behind_noted_here {name : RuleName} {character : Char} {body : Phrase α}
    {tokens : List Token} {misses : List Miss} {found : Option (α × Nat)}
    (run : Run name (.behind (.mark character) body) tokens misses found)
    (other : ∀ token ∈ tokens.head?, token.isSymbol character = false) :
    found = none ∧ ∀ miss ∈ misses, miss.position = 0 := by
  rcases run.behind_cases with ⟨rfl, missed⟩ | ⟨first, rest, _, _, rfl, read, _⟩
  · exact ⟨missed, Terminal.misses_position _ _ _⟩
  · have same := other first rfl
    rw [read_mark_iff.mp read] at same
    cases same

/-! ## Notes behind what was taken -/

/-- Notes that are shifted stay in front of what is taken. -/
theorem shifted_le {misses : List Miss} {before after : Nat}
    (bound : ∀ miss ∈ misses, miss.position ≤ after) :
    ∀ miss ∈ misses.map (Miss.shift before), miss.position ≤ before + after := by
  intro miss member
  obtain ⟨noted, inside, rfl⟩ := List.mem_map.mp member
  exact Nat.add_le_add_left (bound noted inside) before

theorem shifted_lt {misses : List Miss} {before after : Nat}
    (bound : ∀ miss ∈ misses, miss.position < after) :
    ∀ miss ∈ misses.map (Miss.shift before), miss.position < before + after := by
  intro miss member
  obtain ⟨noted, inside, rfl⟩ := List.mem_map.mp member
  exact Nat.add_lt_add_left (bound noted inside) before

theorem sequence_lt {front later : List Miss} {before after : Nat}
    (first : ∀ miss ∈ front, miss.position ≤ before)
    (second : ∀ miss ∈ later, miss.position < after) (progress : 0 < after) :
    ∀ miss ∈ front ++ later.map (Miss.shift before), miss.position < before + after := by
  intro miss member
  rcases List.mem_append.mp member with member | member
  · have := first miss member
    omega
  · exact shifted_lt second miss member

/-! ## Decorators -/

section Decorators

variable {tokens : List Token} {misses : List Miss} {taken : Nat}

/-- A decorator is not looked past, unless a parenthesis follows. -/
theorem decorator_le {decorator : Decorator}
    (run : Run .decorator (definition .decorator) tokens misses (some (decorator, taken)))
    (next : ∀ token ∈ (tokens.drop taken).head?, token.isSymbol '(' = false) :
    ∀ miss ∈ misses, miss.position ≤ taken := by
  obtain ⟨_, whole⟩ := run.of_located
  obtain ⟨first, rest, inner, count, rfl, _, parts, rfl, rfl⟩ := whole.of_behind
  obtain ⟨_, _, front, later, before, after, word, argument, rfl, rfl, rfl⟩ := parts.of_sequence
  obtain ⟨rfl, rfl, _⟩ := word.of_token
  have bound : ∀ miss ∈ later, miss.position ≤ after := by
    rcases argument.tried with ⟨value, count, inside, matched⟩ | ⟨inside, matched⟩ <;> cases matched
    · exact fun miss member => Nat.le_of_lt
        (inside.between_le Brackets.balanced_parentheses rfl miss member)
    · exact fun miss member => Nat.le_of_eq ((inside.behind_noted_here next).2 miss member)
  exact shifted_le (shifted_le bound)

theorem forecast_decorator {next : Option Token}
    (other : ∀ token ∈ next, token.isSymbol '@' = false) :
    (Phrase.reference Nonterminal.decorator).forecast next = .missed := by
  rcases next with _ | token
  · rfl
  · simp [Phrase.forecast, Nonterminal.starts, other token rfl]

/-- In front of a parenthesis there are no decorators. -/
theorem decorators_at_parenthesis {name : RuleName} {decorators : List Decorator} {token : Token}
    (run : Run name (.many (.reference .decorator)) tokens misses (some (decorators, taken)))
    (head : token ∈ tokens.head?) (mark : token.isSymbol '(' = true) :
    taken = 0 := by
  have holds := run.forecast
  rw [Phrase.forecast, Option.mem_def.mp head, forecast_decorator (by
    rintro _ ⟨⟩
    exact isSymbol_of_ne mark (by decide))] at holds
  obtain ⟨_, matched⟩ := holds
  cases matched
  rfl

/-- Decorators are not looked past, if a word follows them. -/
theorem decorators_le {name : RuleName} {decorators : List Decorator}
    (run : Run name (.many (.reference .decorator)) tokens misses (some (decorators, taken)))
    (next : ∀ token ∈ (tokens.drop taken).head?, token.kind = .identifier) :
    ∀ miss ∈ misses, miss.position ≤ taken := by
  induction decorators generalizing tokens misses taken with
  | nil =>
      rcases run.tried with ⟨inner, matched⟩ | ⟨_, _, _, _, _, _, _, _, _, matched⟩ <;>
        cases matched
      refine fun miss member => Nat.le_of_eq (inner.noted_here ?_ miss member)
      rw [forecast_decorator]
      · exact nofun
      · exact fun token member => isSymbol_of_kind (by rw [next token member]; decide) '@'
  | cons decorator decorators ih =>
      rcases run.tried with
        ⟨_, matched⟩ | ⟨_, _, first, more, front, later, inner, others, rfl, matched⟩ <;>
        cases matched
      rw [← List.drop_drop] at next
      have bound := ih others next
      have before := decorator_le inner.tried fun token member => by
        -- Behind a parenthesis there would be no more decorators, but a word follows them.
        by_contra parenthesis
        have mark : token.isSymbol '(' = true := Bool.not_eq_false _ |>.mp parenthesis
        obtain rfl := decorators_at_parenthesis others member mark
        have kind := next token member
        rw [(isSymbol_iff.mp mark).1] at kind
        cases kind
      intro miss member
      rcases List.mem_append.mp member with member | member
      · exact Nat.le_trans (before miss member) (Nat.le_add_right first more)
      · exact shifted_le bound miss member

end Decorators

/-! ## Types -/

section Types

variable {tokens : List Token} {misses : List Miss} {taken : Nat}

/-- What a type could go on with: the brackets of an array, or the parameters of a map. -/
def EndsType (next : Option Token) : Prop :=
  ∀ token ∈ next, token.isSymbol '[' = false ∧ token.isSymbol '<' = false

theorem EndsType.of_mark {tokens rest : List Token} {token : Token} {character : Char}
    (same : tokens = token :: rest) (mark : token.isSymbol character = true)
    (notArray : character ≠ '[') (notMap : character ≠ '<') : EndsType tokens.head? := by
  subst same
  rintro _ ⟨⟩
  exact ⟨isSymbol_of_ne mark notArray, isSymbol_of_ne mark notMap⟩

/-- The phrase for a basic type. -/
def basicPhrase : Phrase SchemaType :=
  .located (fun position (type, array) => .basic position type array.isSome)
    (.sequence (.token .basicType) (.optional (.reference .arraySuffix)))

theorem basic_le {type : SchemaType}
    (run : Run .type basicPhrase tokens misses (some (type, taken)))
    (next : EndsType (tokens.drop taken).head?) : ∀ miss ∈ misses, miss.position ≤ taken := by
  obtain ⟨_, whole⟩ := run.of_located
  obtain ⟨_, _, front, later, before, after, word, suffix, rfl, rfl, rfl⟩ := whole.of_sequence
  obtain ⟨rfl, rfl, first, rest, rfl, _⟩ := word.of_token
  rcases suffix.tried with ⟨value, count, inside, matched⟩ | ⟨inside, matched⟩ <;> cases matched
  · obtain ⟨_, _, _, _, _, _, last, rfl, rfl⟩ := Run.of_behind inside.tried
    obtain ⟨rfl, _⟩ := last.of_token
    exact List.forall_mem_nil _
  · have here := (Run.behind_noted_here inside.tried fun token member => (next token member).1).2
    exact shifted_le fun miss member => Nat.le_of_eq (here miss member)

theorem basic_missed (run : Run .type basicPhrase tokens misses none) :
    ∀ miss ∈ misses, miss.position = 0 := by
  obtain ⟨_ | _, whole, matched⟩ := run.tried
  · rcases whole.tried with ⟨_, word⟩ | ⟨_, _, _, _, _ | _, _, suffix, _, matched⟩
    · exact word.position_of_token_missed
    · rcases suffix.tried with ⟨_, _, _, matched⟩ | ⟨_, matched⟩ <;> cases matched
    · cases matched
  · cases matched

theorem map_le {type : SchemaType}
    (shorter : ∀ {rest : List Token} {misses : List Miss} {type : SchemaType} {taken : Nat},
      rest.length < tokens.length →
      Run .type (definition .type) rest misses (some (type, taken)) →
      EndsType (rest.drop taken).head? → ∀ miss ∈ misses, miss.position ≤ taken)
    (run : Run .mapType (definition .mapType) tokens misses (some (type, taken))) :
    ∀ miss ∈ misses, miss.position ≤ taken := by
  obtain ⟨_, whole⟩ := run.of_located
  obtain ⟨_, _, behindWord, _, rfl, _, bracketed, rfl, rfl⟩ := whole.of_behind
  obtain ⟨_, _, behindMark, _, rfl, _, closed, rfl, rfl⟩ := bracketed.of_behind
  obtain ⟨_, last, others, parts, same, read, rfl⟩ := closed.of_before
  obtain ⟨_, _, _, behindKey, _, _, key, value, rfl, rfl, rfl⟩ := parts.of_sequence
  obtain ⟨rfl, rfl, _, _, rfl, _⟩ := key.of_token
  obtain ⟨_, rest, inner, count, follows, _, type, rfl, rfl⟩ := value.of_behind
  simp only [List.drop_succ_cons, List.drop_zero] at follows
  subst follows
  have ends : EndsType (rest.drop count).head? := by
    rw [← List.drop_drop, List.drop_one, List.tail_cons, ← List.drop_drop, List.drop_one,
      List.tail_cons] at same
    exact .of_mark same (read_mark_iff.mp read) (by decide) (by decide)
  have bound := shorter (by simp only [List.length_cons]; omega) type.tried ends
  intro miss member
  simp only [List.nil_append, List.map_map, List.mem_map, Function.comp_apply] at member
  obtain ⟨noted, inside, rfl⟩ := member
  have := bound noted inside
  simp only [Miss.shift_position]
  omega

/-- What begins like a map and is none was given up at the next token, if that opens no map. -/
theorem map_missed (run : Run .mapType (definition .mapType) tokens misses none)
    (next : EndsType (tokens.drop 1).head?) : ∀ miss ∈ misses, miss.position ≤ 1 := by
  obtain ⟨_ | _, whole, matched⟩ := run.tried
  · rcases whole.behind_cases with ⟨rfl, _⟩ | ⟨_, rest, inner, _, rfl, _, bracketed, rfl, _⟩
    · intro miss member
      rw [Terminal.misses_position _ _ _ miss member]
      exact Nat.zero_le _
    · have here := (bracketed.behind_noted_here fun token member => (next token member).2).2
      exact shifted_le fun miss member => Nat.le_of_eq (here miss member)
  · cases matched

/-- An object type or the name of another type: what both leave is not far, and the name is a single
token. -/
theorem named_le {type : SchemaType}
    (run : Run .type (.choice (.reference .objectType) (.located .foreign (.token .identifier)))
      tokens misses (some (type, taken))) :
    (∀ miss ∈ misses, miss.position ≤ taken) ∧
      (taken = 1 ∨ ∃ first ∈ tokens.head?, first.isSymbol '\x7b' = true) := by
  rcases run.tried with ⟨_, object⟩ | ⟨front, later, object, foreign, rfl⟩
  · obtain ⟨_, whole⟩ := Run.of_located object.tried
    have bound := whole.between_le Brackets.balanced_braces rfl
    obtain ⟨first, _, _, _, rfl, opening, _⟩ := whole.of_behind
    exact ⟨fun miss member => Nat.le_of_lt (bound miss member),
      .inr ⟨first, rfl, read_mark_iff.mp opening⟩⟩
  · obtain ⟨_, name⟩ := foreign.of_located
    obtain ⟨rfl, rfl, first, rest, rfl, read⟩ := name.of_token
    have kind := kind_of_read_identifier read
    refine ⟨fun miss member => ?_, .inl rfl⟩
    rw [List.append_nil] at member
    rw [object.noted_here ?_ miss member]
    · exact Nat.zero_le _
    · simp [Phrase.forecast, Nonterminal.starts, isSymbol_of_kind, kind]

/-- A type is not looked past, if nothing follows that it could go on with. -/
theorem type_le {type : SchemaType}
    (run : Run .type (definition .type) tokens misses (some (type, taken)))
    (next : EndsType (tokens.drop taken).head?) : ∀ miss ∈ misses, miss.position ≤ taken := by
  induction size : tokens.length using Nat.strongRecOn generalizing tokens misses taken type with
  | ind size shorter =>
      rcases run.tried with ⟨_, basic⟩ | ⟨first, later, basic, others, rfl⟩
      · exact basic_le basic next
      have bound : ∀ miss ∈ later, miss.position ≤ taken := by
        rcases others.tried with ⟨_, map⟩ | ⟨second, later, map, named, rfl⟩
        · exact map_le (fun less run ends => shorter _ (by omega) run ends rfl) map.tried
        obtain ⟨bound, single | ⟨opening, head, mark⟩⟩ := named_le named
        · subst single
          intro miss member
          exact (List.mem_append.mp member).elim (map_missed map.tried next miss) (bound miss)
        · intro miss member
          rcases List.mem_append.mp member with member | member
          · rw [map.noted_here ?_ miss member]
            · exact Nat.zero_le _
            · rw [Option.mem_def.mp head]
              simp [Phrase.forecast, Nonterminal.starts, (isSymbol_iff.mp mark).1]
          · exact bound miss member
      intro miss member
      rcases List.mem_append.mp member with member | member
      · rw [basic_missed basic miss member]
        exact Nat.zero_le _
      · exact bound miss member

end Types

/-! ## Functions -/

section Functions

variable {tokens : List Token} {misses : List Miss} {taken : Nat}

/-- The name of a function, with the word in front of it or without, and the parenthesis behind. -/
structure NamesFunction (tokens : List Token) : Prop where
  word : ∀ first ∈ tokens.head?, first.kind = .identifier
  named : (∃ first ∈ tokens.head?, first.isWord "function" = true) ∨
    ∃ second ∈ (tokens.drop 1).head?, second.isSymbol '(' = true

theorem name_le {name : String}
    (run : Run .function (.choice (.behind (.word "function") (.token .identifier))
      (.token .identifier)) tokens misses (some (name, taken)))
    (next : ∃ token ∈ (tokens.drop taken).head?, token.isSymbol '(' = true) :
    (∀ miss ∈ misses, miss.position ≤ taken) ∧ NamesFunction tokens := by
  rcases run.tried with ⟨_, named⟩ | ⟨front, later, named, plain, rfl⟩
  · obtain ⟨first, _, _, _, rfl, word, name, rfl, rfl⟩ := named.of_behind
    obtain ⟨rfl, rfl, _⟩ := name.of_token
    have function := read_word_iff.mp word
    exact ⟨List.forall_mem_nil _, by rintro _ ⟨⟩; exact kind_of_isWord function,
      .inl ⟨first, rfl, function⟩⟩
  · obtain ⟨rfl, rfl, first, rest, rfl, read⟩ := plain.of_token
    refine ⟨fun miss member => ?_,
      by rintro _ ⟨⟩; exact kind_of_read_identifier read, .inr next⟩
    rw [List.append_nil] at member
    rcases named.behind_cases with ⟨rfl, _⟩ | ⟨_, _, inner, _ | _, ⟨⟩, _, name, rfl, matched⟩
    · rw [Terminal.misses_position _ _ _ miss member]
      exact Nat.zero_le _
    · have here := name.position_of_token_missed
      exact shifted_le (fun miss member => Nat.le_of_eq (here miss member)) miss member
    · cases matched

/-- The type of the result of a function is not looked past in front of the body. -/
theorem result_le {result : Option SchemaType}
    (run : Run .function (.optional (.behind (.mark ':') (.reference .type))) tokens misses
      (some (result, taken)))
    (next : ∃ token ∈ (tokens.drop taken).head?, token.isSymbol '\x7b' = true) :
    ∀ miss ∈ misses, miss.position ≤ taken := by
  obtain ⟨brace, head, mark⟩ := next
  rcases run.tried with ⟨_, _, typed, matched⟩ | ⟨untyped, matched⟩ <;> cases matched
  · obtain ⟨_, rest, inner, count, rfl, _, type, rfl, rfl⟩ := typed.of_behind
    refine shifted_le (type_le type.tried ?_)
    rw [← List.drop_drop, List.drop_one, List.tail_cons] at head
    obtain ⟨others, same⟩ := List.head?_eq_some_iff.mp head
    exact .of_mark same mark (by decide) (by decide)
  · refine fun miss member => Nat.le_of_eq ((untyped.behind_noted_here ?_).2 miss member)
    intro token here
    obtain rfl : brace = token := Option.some.inj (head.symm.trans here)
    exact isSymbol_of_ne mark (by decide)

theorem exists_head_of_between {name : RuleName} {opening closing : Char} {body : Phrase α}
    {value : α}
    (run : Run name (.between opening closing body) tokens misses (some (value, taken))) :
    ∃ token ∈ tokens.head?, token.isSymbol opening = true := by
  obtain ⟨first, _, _, _, rfl, mark, _⟩ := run.of_behind
  exact ⟨first, rfl, read_mark_iff.mp mark⟩

/-- A function is sealed.  Its decorators are not looked past, and its name stands behind them. -/
theorem function_lt {function : Function}
    (run : Run .function (definition .function) tokens misses (some (function, taken))) :
    (∀ miss ∈ misses, miss.position < taken) ∧ ∃ decorators front before,
      Run .function (.many (.reference .decorator)) tokens front (some (decorators, before)) ∧
      (∀ miss ∈ front, miss.position ≤ before) ∧ before + 1 < taken ∧
      NamesFunction (tokens.drop before) := by
  obtain ⟨_, whole⟩ := run.of_located
  obtain ⟨_, _, front, _, before, _, decorators, behindDecorators, rfl, rfl, rfl⟩ :=
    whole.of_sequence
  obtain ⟨_, _, _, _, _, _, name, behindName, rfl, rfl, rfl⟩ := behindDecorators.of_sequence
  obtain ⟨_, _, _, _, _, _, parameters, behindParameters, rfl, rfl, rfl⟩ := behindName.of_sequence
  obtain ⟨_, _, _, _, _, _, result, body, rfl, rfl, rfl⟩ := behindParameters.of_sequence
  obtain ⟨nameBound, names⟩ := name_le name (exists_head_of_between parameters)
  have decoratorBound := decorators_le decorators names.word
  have parameterBound := parameters.between_le Brackets.balanced_parentheses rfl
  have resultBound := result_le result (exists_head_of_between body)
  have bodyBound := body.between_le Brackets.balanced_braces rfl
  have nameProgress := name.progress rfl rfl
  have bodyProgress := body.progress rfl rfl
  refine ⟨?_, _, front, before, decorators, decoratorBound, by omega, names⟩
  refine sequence_lt decoratorBound (sequence_lt nameBound (sequence_lt ?_
    (sequence_lt resultBound bodyBound bodyProgress) (by omega)) (by omega)) (by omega)
  exact fun miss member => Nat.le_of_lt (parameterBound miss member)

end Functions

/-! ## Declarations -/

section Declarations

variable {tokens : List Token} {misses : List Miss} {taken : Nat}

theorem collection_lt {collection : Collection}
    (run : Run .collection (definition .collection) tokens misses (some (collection, taken))) :
    ∀ miss ∈ misses, miss.position < taken := by
  obtain ⟨_, whole⟩ := run.of_located
  obtain ⟨_, _, front, _, before, _, decorators, rest, rfl, rfl, rfl⟩ := whole.of_sequence
  obtain ⟨first, _, _, _, same, word, named, rfl, rfl⟩ := rest.of_behind
  obtain ⟨_, _, _, _, _, _, name, body, rfl, rfl, rfl⟩ := named.of_sequence
  obtain ⟨rfl, rfl, _⟩ := name.of_token
  have decoratorBound := decorators_le decorators (by
    rw [same]
    rintro _ ⟨⟩
    exact kind_of_isWord (read_word_iff.mp word))
  have bodyBound := body.between_le Brackets.balanced_braces rfl
  have bodyProgress := body.progress rfl rfl
  refine sequence_lt decoratorBound ?_ (by omega)
  exact shifted_lt (shifted_lt bodyBound)

/-- A function that is named by a word which begins a collection has no name behind that word. -/
theorem kind_of_second {first second : Token} {rest : List Token}
    (same : tokens = first :: second :: rest) (word : first.isWord "collection" = true)
    (names : NamesFunction tokens) : second.kind ≠ .identifier := by
  subst same
  rcases names.named with ⟨_, ⟨⟩, function⟩ | ⟨_, ⟨⟩, parenthesis⟩
  · simp only [Token.isWord, Bool.and_eq_true, beq_iff_eq] at word function
    exact absurd (word.2.symm.trans function.2) (by decide)
  · rw [(isSymbol_iff.mp parenthesis).1]
    decide

/-- Where a function stands, a collection is given up at its name or right behind it. -/
theorem collection_missed {decorators : List Decorator} {front : List Miss} {before : Nat}
    (run : Run .collection (definition .collection) tokens misses none)
    (behind : Run .function (.many (.reference .decorator)) tokens front
      (some (decorators, before)))
    (bound : ∀ miss ∈ front, miss.position ≤ before)
    (names : NamesFunction (tokens.drop before)) :
    ∀ miss ∈ misses, miss.position < before + 2 := by
  obtain ⟨_ | _, whole, matched⟩ := run.tried
  case some => cases matched
  rcases whole.tried with ⟨_, left⟩ | ⟨_, _, _, later, _ | _, left, rest, rfl, matched⟩
  · rcases left.tried with ⟨_, matched⟩ | ⟨_, _, _, _, _, _, _, _, _, matched⟩ <;> cases matched
  · -- The decorators are the same, whichever declaration they are read for.
    have same : Reply.mk _ (some (_, _)) = ⟨front, some (decorators, before)⟩ :=
      left.reply.symm.trans behind.reply
    cases same
    refine sequence_lt bound ?_ Nat.two_pos
    rcases rest.behind_cases with ⟨rfl, _⟩ | ⟨first, others, inner, _, same, word, named, rfl, _⟩
    · intro miss member
      rw [Terminal.misses_position _ _ _ miss member]
      exact Nat.two_pos
    · have missed : ∀ miss ∈ inner, miss.position ≤ 0 := by
        rcases named.tried with ⟨_, name⟩ | ⟨_, _, _, _, _, name, _⟩
        · exact fun miss member => Nat.le_of_eq (name.position_of_token_missed miss member)
        · obtain ⟨_, _, second, _, rfl, read⟩ := name.of_token
          exact absurd (kind_of_read_identifier read)
            (kind_of_second same (read_word_iff.mp word) names)
      exact fun miss member => Nat.lt_succ_of_le (shifted_le missed miss member)
  · cases matched

/-- A declaration is sealed: nothing behind it was looked at. -/
theorem declaration_lt {declaration : Declaration}
    (run : Run .program (definition .declaration) tokens misses (some (declaration, taken))) :
    ∀ miss ∈ misses, miss.position < taken := by
  rcases run.tried with ⟨_, collection⟩ | ⟨front, later, collection, function, rfl⟩
  · obtain ⟨_, inner, _⟩ := collection.of_map
    exact collection_lt inner.tried
  · obtain ⟨_, inner, _⟩ := function.of_map
    obtain ⟨bound, _, _, before, decorators, decoratorBound, inside, names⟩ :=
      function_lt inner.tried
    obtain ⟨_ | _, missed, matched⟩ := collection.tried
    case some => cases matched
    intro miss member
    rcases List.mem_append.mp member with member | member
    · have := collection_missed missed.tried decorators decoratorBound names miss member
      omega
    · exact bound miss member

end Declarations

end CollectionSchema.Peg
