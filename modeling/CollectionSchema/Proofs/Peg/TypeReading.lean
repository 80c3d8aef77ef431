import CollectionSchema.Proofs.Peg.Composition
import CollectionSchema.Proofs.Peg.Reading
import CollectionSchema.Proofs.Syntax.Bare
import CollectionSchema.Proofs.Syntax.Yield

/-!
# Types from their signs

Tokens that spell the signs of a type are read as a type again, with the same bare form.
The four shapes of a type are tried in order, so each of them has to show that those in
front of it fail: a word that is no basic type may still be the word of a map.

A type does not end by itself.  A bracket behind a basic type makes an array of it, and an
angle behind the word `map` begins a map, so nothing of the kind may follow
(`EndsType`).  What follows a type inside another one is a semicolon or a closing angle.
-/

set_option autoImplicit false

namespace CollectionSchema

namespace Peg

open Phrase (behind before between braced)

/-! ## The shapes of a type -/

section Reading

variable {name : RuleName} {tokens rest : List Token} {first : Token}

theorem isSymbol_of_isWord {spelling : String} (is : first.isWord spelling = true)
    (character : Char) : first.isSymbol character = false :=
  isSymbol_of_kind (by rw [kind_of_isWord is]; decide) character

theorem read_basicType {spelling : String} (is : first.isWord spelling = true) :
    Terminal.basicType.read first = BasicType.ofWord? spelling := by
  obtain ⟨kind, rfl⟩ := isWord_iff.mp is
  simp [Terminal.read, kind]

theorem read_identifier {spelling : String} (is : first.isWord spelling = true) :
    Terminal.identifier.read first = some spelling := by
  obtain ⟨kind, rfl⟩ := isWord_iff.mp is
  simp [Terminal.read, kind]

/-- Where a word stands that is no basic type, the phrase for basic types fails. -/
theorem basicPhrase_fails (unread : Terminal.basicType.read first = none) :
    basicPhrase.Fails .type (first :: rest) :=
  .located rfl (.sequenceFirst (.token unread))

/-- No map begins where no angle stands behind the first token. -/
theorem mapType_fails (ends : EndsType rest.head?) :
    (Phrase.reference Nonterminal.mapType).Fails name (first :: rest) := by
  refine .ofReference (.located rfl ?_)
  rcases map : first.isWord "map" with _ | _
  · exact .behind (by simp [Terminal.read, map])
  · refine .behindFirst (read_word_iff.mpr map) (.behind ?_)
    exact unread_mark fun token head => (ends token head).2

/-- A type with the same bare form is read from all of the tokens, if nothing stands behind them
that a type goes on with. -/
def ReadsType (type : SchemaType) (tokens : List Token) : Prop :=
  ∀ rest : List Token, EndsType rest.head? → ∃ again,
    (definition .type).Reads .type (tokens ++ rest) again tokens.length ∧ again.bare = type.bare

theorem ReadsType.basic {position : Position} {type : BasicType}
    (is : first.isWord type.word = true) : ReadsType (.basic position type false) [first] := by
  intro rest ends
  have read := (read_basicType is).trans type.ofWord?_word
  have alone : (Phrase.optional (.reference .arraySuffix)).Reads .type rest none 0 :=
    .optionalMissed (.ofReference (.behind (unread_mark fun token head => (ends token head).1)))
  have whole : basicPhrase.Reads .type (first :: rest) (.basic first.position type false) (1 + 0) :=
    .located rfl (.sequence (.token read) alone)
  exact ⟨_, .choiceFirst whole, rfl⟩

theorem ReadsType.array {position : Position} {type : BasicType} {opening closing : Token}
    (is : first.isWord type.word = true) (opens : opening.isSymbol '[' = true)
    (closes : closing.isSymbol ']' = true) :
    ReadsType (.basic position type true) [first, opening, closing] := by
  intro rest _
  have read := (read_basicType is).trans type.ofWord?_word
  have suffix : (Phrase.reference .arraySuffix).Reads .type (opening :: closing :: rest) () 2 :=
    .reference (.behind (read_mark_iff.mpr opens) (.token (read_mark_iff.mpr closes)))
  have whole : basicPhrase.Reads .type (first :: opening :: closing :: rest)
      (.basic first.position type true) (1 + 2) :=
    .located rfl (.sequence (.token read) (.optional suffix))
  exact ⟨_, .choiceFirst whole, rfl⟩

theorem ReadsType.map {position : Position} {key : BasicType} {value : SchemaType}
    {opening word comma closing : Token} (is : first.isWord "map" = true)
    (opens : opening.isSymbol '<' = true) (keyed : word.isWord key.word = true)
    (separates : comma.isSymbol ',' = true) (inner : ReadsType value tokens)
    (closes : closing.isSymbol '>' = true) :
    ReadsType (.map position key value)
      (first :: opening :: word :: comma :: (tokens ++ [closing])) := by
  intro rest _
  obtain ⟨again, reads, same⟩ := inner (closing :: rest)
    (.of_mark rfl closes (by decide) (by decide))
  have read := (read_basicType keyed).trans key.ofWord?_word
  have pair : (Phrase.sequence (.token .basicType) (behind (.mark ',') (.reference .type))).Reads
      .mapType (word :: comma :: (tokens ++ closing :: rest)) (key, again)
        (1 + (1 + tokens.length)) :=
    .sequence (.token read) (.behind (read_mark_iff.mpr separates) (.reference reads))
  have left : (word :: comma :: (tokens ++ closing :: rest)).drop (1 + (1 + tokens.length)) =
      closing :: rest := by
    rw [← List.drop_drop, ← List.drop_drop]
    exact List.drop_left
  have whole : (definition .mapType).Reads .mapType
      (first :: opening :: word :: comma :: (tokens ++ closing :: rest))
        (.map first.position key again) (1 + (1 + (1 + (1 + tokens.length) + 1))) :=
    .located rfl (.behind (read_word_iff.mpr is) (.behind (read_mark_iff.mpr opens)
      (.before pair left (read_mark_iff.mpr closes))))
  have count : 1 + (1 + (1 + (1 + tokens.length) + 1)) =
      (first :: opening :: word :: comma :: (tokens ++ [closing])).length := by
    simp only [List.length_cons, List.length_append, List.length_nil]
    omega
  rw [count] at whole
  refine ⟨.map first.position key again, ?_, ?_⟩
  · rw [List.cons_append, List.cons_append, List.cons_append, List.cons_append, List.append_assoc]
    exact .choiceSecond (basicPhrase_fails (read_basicType is)) (.choiceFirst (.reference whole))
  · rw [SchemaType.bare, SchemaType.bare, same]

theorem ReadsType.foreign {position : Position} {spelling : String}
    (is : first.isWord spelling = true) (other : BasicType.ofWord? spelling = none) :
    ReadsType (.foreign position spelling) [first] := by
  intro rest ends
  have noObject : (Phrase.reference Nonterminal.objectType).Fails .type (first :: rest) := by
    refine .ofReference (.located rfl (.behind (unread_mark ?_)))
    rintro _ ⟨⟩
    exact isSymbol_of_isWord is _
  have named : (Phrase.located SchemaType.foreign (.token .identifier)).Reads .type (first :: rest)
      (.foreign first.position spelling) 1 := .located rfl (.token (read_identifier is))
  exact ⟨_, .choiceSecond (basicPhrase_fails ((read_basicType is).trans other))
    (.choiceSecond (mapType_fails ends) (.choiceSecond noObject named)), rfl⟩

/-! ## Fields -/

/-- A field with the same bare form is read from all of the tokens, if nothing stands behind them
that its type goes on with. -/
def ReadsField (field : Field) (tokens : List Token) : Prop :=
  ∀ rest : List Token, EndsType rest.head? → ∃ again,
    (definition .field).Reads .field (tokens ++ rest) again tokens.length ∧ again.bare = field.bare

/-- In front of a word there are no decorators. -/
theorem reads_no_decorators {spelling : String} (is : first.isWord spelling = true) :
    (Phrase.many (.reference .decorator)).Reads name (first :: rest) [] 0 := by
  refine .manyEnd (.of_forecast rfl (forecast_decorator ?_))
  rintro _ ⟨⟩
  exact isSymbol_of_isWord is '@'

/-- A field is read from all of its tokens when the flag and the type behind its name are. -/
theorem ReadsField.named {position : Position} {decorators : List Decorator} {spelling : String}
    {flag : Bool} {type : SchemaType} {typed : List Token} (is : first.isWord spelling = true)
    (inner : ∀ rest : List Token, EndsType rest.head? → ∃ again,
      (Phrase.flagged '?' (behind (.mark ':') (.reference .type))).Reads .field (typed ++ rest)
        (flag, again) typed.length ∧ again.bare = type.bare) :
    ReadsField ⟨position, decorators, spelling, flag, type⟩ (first :: typed) := by
  intro rest ends
  obtain ⟨again, reads, same⟩ := inner rest ends
  have whole : (definition .field).Reads .field (first :: (typed ++ rest))
      ⟨first.position, [], spelling, flag, again⟩ (0 + (1 + typed.length)) :=
    .located rfl (.sequence (reads_no_decorators is)
      (.sequence (.token (read_identifier is)) reads))
  have count : 0 + (1 + typed.length) = (first :: typed).length := by
    rw [List.length_cons, Nat.zero_add, Nat.add_comm]
  rw [count] at whole
  exact ⟨_, whole, by rw [Field.bare, Field.bare, same]⟩

theorem ReadsField.plain {position : Position} {decorators : List Decorator} {spelling : String}
    {type : SchemaType} {colon : Token} (is : first.isWord spelling = true)
    (separates : colon.isSymbol ':' = true) (inner : ReadsType type tokens) :
    ReadsField ⟨position, decorators, spelling, false, type⟩ (first :: colon :: tokens) := by
  refine .named is fun rest ends => ?_
  obtain ⟨again, reads, same⟩ := inner rest ends
  have noFlag : ∀ token ∈ (colon :: (tokens ++ rest)).head?, token.isSymbol '?' = false := by
    rintro _ ⟨⟩
    exact isSymbol_of_ne separates (by decide)
  have typed : (Phrase.flagged '?' (behind (.mark ':') (.reference .type))).Reads .field
      (colon :: (tokens ++ rest)) (false, again) (1 + tokens.length) :=
    .flaggedUnset rfl noFlag (.behind (read_mark_iff.mpr separates) (.reference reads))
  rw [Nat.add_comm] at typed
  exact ⟨again, typed, same⟩

theorem ReadsField.optional {position : Position} {decorators : List Decorator} {spelling : String}
    {type : SchemaType} {question colon : Token} (is : first.isWord spelling = true)
    (flags : question.isSymbol '?' = true) (separates : colon.isSymbol ':' = true)
    (inner : ReadsType type tokens) :
    ReadsField ⟨position, decorators, spelling, true, type⟩
      (first :: question :: colon :: tokens) := by
  refine .named is fun rest ends => ?_
  obtain ⟨again, reads, same⟩ := inner rest ends
  have typed : (Phrase.flagged '?' (behind (.mark ':') (.reference .type))).Reads .field
      (question :: colon :: (tokens ++ rest)) (true, again) (1 + (1 + tokens.length)) :=
    .flagged flags (.behind (read_mark_iff.mpr separates) (.reference reads))
  have count : 1 + (1 + tokens.length) = (question :: colon :: tokens).length := by
    simp only [List.length_cons]
    omega
  rw [count] at typed
  exact ⟨again, typed, same⟩

/-- Fields with the same bare forms are read from all of the tokens, up to a closing brace. -/
def ReadsFields (fields : List Field) (tokens : List Token) : Prop :=
  ∀ (closing : Token) (rest : List Token), closing.isSymbol '\x7d' = true → ∃ again,
    (Phrase.many (before (.reference .field) (.mark ';'))).Reads .objectType
      (tokens ++ closing :: rest) again tokens.length ∧ bareFields again = bareFields fields

theorem ReadsFields.nil : ReadsFields [] [] := by
  intro closing rest closes
  have mark := (isSymbol_iff.mp closes).1
  have noField : (Phrase.reference Nonterminal.field).Fails .objectType (closing :: rest) := by
    refine .of_forecast rfl ?_
    simp [Phrase.forecast, Nonterminal.starts, mark, isSymbol_of_ne closes]
  exact ⟨[], .manyEnd (.map (.sequenceFirst noField)), rfl⟩

theorem ReadsFields.cons {field : Field} {fields : List Field} {separator : Token}
    {others : List Token} (inner : ReadsField field tokens)
    (separates : separator.isSymbol ';' = true) (rest : ReadsFields fields others) :
    ReadsFields (field :: fields) (tokens ++ separator :: others) := by
  intro closing behind closes
  obtain ⟨again, reads, same⟩ := inner (separator :: (others ++ closing :: behind))
    (.of_mark rfl separates (by decide) (by decide))
  obtain ⟨more, later, alike⟩ := rest closing behind closes
  have ended : (before (.reference .field) (.mark ';')).Reads .objectType
      (tokens ++ separator :: (others ++ closing :: behind)) again (tokens.length + 1) :=
    .before (.reference reads) List.drop_left (read_mark_iff.mpr separates)
  have left : (tokens ++ separator :: (others ++ closing :: behind)).drop (tokens.length + 1) =
      others ++ closing :: behind := by
    rw [← List.drop_drop, List.drop_left]
    rfl
  have whole := Phrase.Reads.many rfl ended (left ▸ later)
  have count : tokens.length + 1 + others.length = (tokens ++ separator :: others).length := by
    simp only [List.length_append, List.length_cons]
    omega
  rw [count] at whole
  refine ⟨again :: more, ?_, ?_⟩
  · rw [List.append_assoc]
    exact whole
  · rw [bareFields, bareFields, same, alike]

theorem ReadsType.object {position : Position} {fields : List Field} {opening closing : Token}
    (opens : opening.isSymbol '\x7b' = true) (inner : ReadsFields fields tokens)
    (closes : closing.isSymbol '\x7d' = true) :
    ReadsType (.object position fields) (opening :: (tokens ++ [closing])) := by
  intro rest _
  obtain ⟨again, reads, same⟩ := inner closing rest closes
  have whole : (definition .objectType).Reads .objectType (opening :: (tokens ++ closing :: rest))
      (.object opening.position again) (1 + (tokens.length + 1)) :=
    .located rfl (.behind (read_mark_iff.mpr opens)
      (.before reads List.drop_left (read_mark_iff.mpr closes)))
  have count : 1 + (tokens.length + 1) = (opening :: (tokens ++ [closing])).length := by
    simp only [List.length_append, List.length_cons, List.length_nil]
    omega
  rw [count] at whole
  have noWord : opening.kind ≠ .identifier := by
    rw [(isSymbol_iff.mp opens).1]
    decide
  have noMap : (Phrase.reference Nonterminal.mapType).Fails .type
      (opening :: (tokens ++ closing :: rest)) :=
    .ofReference (.located rfl (.behind (by simp [Terminal.read, Token.isWord, noWord])))
  refine ⟨.object opening.position again, ?_, ?_⟩
  · rw [List.cons_append, List.append_assoc]
    exact .choiceSecond (basicPhrase_fails (by simp [Terminal.read, noWord]))
      (.choiceSecond noMap (.choiceFirst (.reference whole)))
  · rw [SchemaType.bare, SchemaType.bare, same]

end Reading

end Peg

/-! ## Types with all their parts -/

open Peg (ReadsType ReadsField ReadsFields)

mutual

/-- Tokens that spell a bare type are read as a type with this bare form. -/
theorem SchemaType.reads : ∀ type : SchemaType, type.Regular → ∀ {tokens : List Token},
    Spells type.bare.signs tokens → ReadsType type tokens
  | .basic position type false, _, tokens, spells => by
      obtain ⟨first, _, rfl, is, ⟨⟩⟩ := spells.of_word
      exact .basic is
  | .basic position type true, _, tokens, spells => by
      obtain ⟨first, _, rfl, is, rest⟩ := spells.of_word
      obtain ⟨opening, _, rfl, opens, rest⟩ := rest.of_mark
      obtain ⟨closing, _, rfl, closes, ⟨⟩⟩ := rest.of_mark
      exact .array is opens closes
  | .map position key value, regular, tokens, spells => by
      obtain ⟨first, _, rfl, is, rest⟩ := spells.of_word
      obtain ⟨opening, _, rfl, opens, rest⟩ := rest.of_mark
      obtain ⟨word, _, rfl, keyed, rest⟩ := rest.of_word
      obtain ⟨comma, _, rfl, separates, rest⟩ := rest.of_mark
      obtain ⟨inner, _, rfl, within, rest⟩ := rest.of_append
      obtain ⟨closing, _, rfl, closes, ⟨⟩⟩ := rest.of_mark
      exact .map is opens keyed separates (value.reads regular within) closes
  | .object position fields, regular, tokens, spells => by
      obtain ⟨opening, _, rfl, opens, rest⟩ := spells.of_mark
      obtain ⟨inner, _, rfl, within, rest⟩ := rest.of_append
      obtain ⟨closing, _, rfl, closes, ⟨⟩⟩ := rest.of_mark
      exact .object opens (reads_fields fields regular within) closes
  | .foreign position name, regular, tokens, spells => by
      obtain ⟨first, _, rfl, is, ⟨⟩⟩ := spells.of_word
      exact .foreign is regular.2

/-- Tokens that spell a bare field are read as a field with this bare form. -/
theorem Field.reads : ∀ field : Field, field.Regular → ∀ {tokens : List Token},
    Spells field.bare.signs tokens → ReadsField field tokens
  | ⟨position, decorators, name, false, type⟩, regular, tokens, spells => by
      obtain ⟨first, _, rfl, is, rest⟩ := spells.of_word
      obtain ⟨colon, _, rfl, separates, within⟩ := rest.of_mark
      exact .plain is separates (type.reads regular.2.2 within)
  | ⟨position, decorators, name, true, type⟩, regular, tokens, spells => by
      obtain ⟨first, _, rfl, is, rest⟩ := spells.of_word
      obtain ⟨question, _, rfl, flags, rest⟩ := rest.of_mark
      obtain ⟨colon, _, rfl, separates, within⟩ := rest.of_mark
      exact .optional is flags separates (type.reads regular.2.2 within)

/-- Tokens that spell bare fields are read as fields with these bare forms. -/
theorem reads_fields : ∀ fields : List Field, FieldsRegular fields → ∀ {tokens : List Token},
    Spells (fieldsSigns (bareFields fields)) tokens → ReadsFields fields tokens
  | [], _, tokens, spells => by
      cases spells
      exact .nil
  | field :: rest, regular, tokens, spells => by
      obtain ⟨inner, _, rfl, within, others⟩ := spells.of_append
      obtain ⟨separator, _, rfl, separates, others⟩ := others.of_mark
      exact .cons (field.reads regular.1 within) separates (reads_fields rest regular.2 others)

end

end CollectionSchema
