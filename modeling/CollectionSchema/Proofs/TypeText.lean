import CollectionSchema.Proofs.Peg.TypeReading
import CollectionSchema.Proofs.RegularPrograms

/-!
# The text of a type

A type shows itself in the notation of the schema language, so this text is read as a
type again.  Printer and grammar meet in the signs of the bare type: the text is one way
to write them down (`SchemaType.writes`), its tokens spell them (`Writes.lexes`), and
tokens that spell them are read as a type with this bare form (`SchemaType.reads`).
-/

set_option autoImplicit false

namespace CollectionSchema

/-! ## Signs written down -/

/-- A text in which signs are written down: words that no letter or digit follows directly, marks
that are no part of a comment or a number, and blanks. -/
inductive Writes : List Sign → List Char → Prop
  | nil : Writes [] []
  | word {name : String} {signs : List Sign} {text : List Char} (isName : IsName name)
      (ends : ∀ next ∈ text.head?, Pattern.continuesIdentifier next = false)
      (behind : Writes signs text) : Writes (.word name :: signs) (name.toList ++ text)
  | mark {character : Char} {signs : List Sign} {text : List Char}
      (listed : character ∈ Pattern.marks) (alone : character ∉ ['/', '+', '-'])
      (behind : Writes signs text) : Writes (.mark character :: signs) (character :: text)
  | blank {signs : List Sign} {text : List Char} (behind : Writes signs text) :
      Writes signs (' ' :: text)

/-- A mark that starts neither a comment nor a number is a token whatever follows it. -/
theorem Pattern.firstMatch_alone {character : Char} (listed : character ∈ marks)
    (alone : character ∉ ['/', '+', '-']) (text : List Char) :
    firstMatch (character :: text) = some (some .symbol, ⟨[character], text⟩) := by
  simp only [List.mem_cons, List.not_mem_nil, or_false, not_or] at alone
  obtain ⟨slash, plus, minus⟩ := alone
  obtain ⟨solid, starts, _, double, single, _⟩ := of_mem_marks listed
  have unsigned : number (character :: text) = none :=
    number_of_mark listed fun sign => (sign.elim plus minus).elim
  rw [firstMatch_of_solid (comment_of_ne slash text) solid starts double single, unsigned, mark,
    if_pos (List.contains_iff_mem.mpr listed)]
  rfl

/-- The tokens of a text spell the signs that are written down in it. -/
theorem Writes.lexes {signs : List Sign} {text : List Char} (writes : Writes signs text) :
    ∀ place, ∃ tokens last, Lexes text place (.ok (tokens ++ [last])) ∧ last.isEnd = true ∧
      Spells signs tokens := by
  induction writes with
  | nil => exact fun place => ⟨[], Token.endAt place, .done, rfl, .nil⟩
  | @word name signs text isName ends _ ih =>
      intro place
      obtain ⟨tokens, last, lexes, ended, spells⟩ := ih (place.after name.toList)
      unfold IsName at isName
      generalize chars : name.toList = written at isName lexes
      obtain ⟨starts, continues⟩ := isName
      have found := Pattern.firstMatch_identifier starts continues ends
      refine ⟨⟨.identifier, name, place⟩ :: tokens, last, ?_, ended, .cons (.word ?_) spells⟩
      · rw [← String.ofList_toList (s := name), chars]
        exact .token found lexes
      · exact Peg.isWord_iff.mpr ⟨rfl, rfl⟩
  | @mark character signs text listed alone _ ih =>
      intro place
      obtain ⟨tokens, last, lexes, ended, spells⟩ := ih (place.after [character])
      have found := Pattern.firstMatch_alone listed alone text
      refine ⟨⟨.symbol, String.ofList [character], place⟩ :: tokens, last, .token found lexes,
        ended,
        .cons (.mark ?_) spells⟩
      simp [Token.isSymbol]
  | blank _ ih =>
      intro place
      obtain ⟨tokens, last, lexes, ended, spells⟩ := ih (place.after [' '])
      exact ⟨tokens, last, .blank rfl lexes, ended, spells⟩

/-! ## The text of a type writes its signs -/

theorem BasicType.isName_word (type : BasicType) : IsName type.word := by
  cases type <;> exact .identifier rfl (List.all_eq_true.mp rfl)

/-- A word ends in front of this text. -/
def EndsWord (text : List Char) : Prop :=
  ∀ next ∈ text.head?, Pattern.continuesIdentifier next = false

theorem endsWord_cons {character : Char} (ends : Pattern.continuesIdentifier character = false)
    (text : List Char) : EndsWord (character :: text) := by
  rintro _ ⟨⟩
  exact ends

mutual

/-- The text of a type is one way to write the signs of its bare form. -/
theorem SchemaType.writes : ∀ type : SchemaType, type.Regular → ∀ {signs : List Sign}
    {text : List Char}, Writes signs text → EndsWord text →
      Writes (type.bare.signs ++ signs) (type.display.toList ++ text)
  | .basic position type array, _, signs, text, behind, ends => by
      cases array with
      | false =>
          have layout : (SchemaType.basic position type false).display.toList =
              type.word.toList := by
            simp [SchemaType.display]
          rw [layout]
          exact .word type.isName_word ends behind
      | true =>
          have layout : (SchemaType.basic position type true).display.toList ++ text =
              type.word.toList ++ '[' :: ']' :: text := by
            simp [SchemaType.display]
          rw [layout]
          exact .word type.isName_word (endsWord_cons rfl _) (.mark (by decide) (by decide)
            (.mark (by decide) (by decide) behind))
  | .map position key value, regular, signs, text, behind, ends => by
      have layout : (SchemaType.map position key value).display.toList ++ text =
          "map".toList ++ '<' :: (key.word.toList ++ ',' :: ' ' ::
            (value.display.toList ++ '>' :: text)) := by
        simp [SchemaType.display]
      have order : (SchemaType.map position key value).bare.signs ++ signs =
          .word "map" :: .mark '<' :: .word key.word :: .mark ',' ::
            (value.bare.signs ++ .mark '>' :: signs) := by
        simp [SchemaType.bare, SchemaType.signs, Sign.between]
      have closing : Writes (.mark '>' :: signs) ('>' :: text) :=
        .mark (by decide) (by decide) behind
      have inner := value.writes regular closing (endsWord_cons rfl text)
      rw [layout, order]
      refine .word (.identifier rfl (List.all_eq_true.mp rfl)) (endsWord_cons rfl _) ?_
      refine .mark (by decide) (by decide) (.word key.isName_word (endsWord_cons rfl _) ?_)
      exact .mark (by decide) (by decide) (.blank inner)
  | .object position fields, regular, signs, text, behind, _ => by
      have layout : (SchemaType.object position fields).display.toList ++ text =
          '\x7b' :: ' ' :: ((SchemaType.displayFields fields).toList ++ '\x7d' :: text) := by
        simp [SchemaType.display]
      have order : (SchemaType.object position fields).bare.signs ++ signs =
          .mark '\x7b' :: (fieldsSigns (bareFields fields) ++ .mark '\x7d' :: signs) := by
        simp [SchemaType.bare, SchemaType.signs, Sign.braced, Sign.between]
      have closing : Writes (.mark '\x7d' :: signs) ('\x7d' :: text) :=
        .mark (by decide) (by decide) behind
      have inner := writes_fields fields regular closing
      rw [layout, order]
      exact .mark (by decide) (by decide) (.blank inner)
  | .foreign _ name, regular, signs, text, behind, ends => .word regular.1 ends behind

/-- The text of fields writes the signs of their bare forms. -/
theorem writes_fields : ∀ fields : List Field, FieldsRegular fields → ∀ {signs : List Sign}
    {text : List Char}, Writes signs text →
      Writes (fieldsSigns (bareFields fields) ++ signs)
        ((SchemaType.displayFields fields).toList ++ text)
  | [], _, _, _, behind => behind
  | ⟨position, decorators, name, optional, type⟩ :: rest, regular, signs, text, behind => by
      have order :
          fieldsSigns (bareFields (⟨position, decorators, name, optional, type⟩ :: rest)) ++
          signs = .word name :: ((if optional then [.mark '?'] else []) ++ .mark ':' ::
            (type.bare.signs ++ .mark ';' :: (fieldsSigns (bareFields rest) ++ signs))) := by
        simp [bareFields, fieldsSigns, Field.bare, Field.signs]
      have layout : (SchemaType.displayFields
          (⟨position, decorators, name, optional, type⟩ :: rest)).toList ++ text =
          name.toList ++ ((if optional then ['?'] else []) ++ ':' :: ' ' ::
            (type.display.toList ++ ';' :: ' ' ::
              ((SchemaType.displayFields rest).toList ++ text))) := by
        cases optional <;> simp [SchemaType.displayFields]
      have others : Writes (.mark ';' :: (fieldsSigns (bareFields rest) ++ signs))
          (';' :: ' ' :: ((SchemaType.displayFields rest).toList ++ text)) :=
        .mark (by decide) (by decide) (.blank (writes_fields rest regular.2 behind))
      have typed : Writes (.mark ':' :: (type.bare.signs ++ .mark ';' ::
          (fieldsSigns (bareFields rest) ++ signs))) (':' :: ' ' :: (type.display.toList ++
            ';' :: ' ' :: ((SchemaType.displayFields rest).toList ++ text))) :=
        .mark (by decide) (by decide)
          (.blank (type.writes regular.1.2.2 others (endsWord_cons rfl _)))
      rw [layout, order]
      cases optional with
      | false => exact .word regular.1.2.1 (endsWord_cons rfl _) typed
      | true =>
          exact .word regular.1.2.1 (endsWord_cons rfl _) (.mark (by decide) (by decide) typed)

end

/-! ## The types of a program -/

theorem SchemaType.found_of_reads {type : SchemaType} {tokens : List Token} {taken : Nat}
    (reads : (Peg.definition .type).Reads .type tokens type taken) :
    (Grammar.type tokens).found = some (type, taken) := by
  obtain ⟨misses, run⟩ := reads
  have same : Grammar.type = (Peg.definition .type).rule .type := Peg.rule_eq .type
  rw [same, run.reply]

/-- The text that a type of a program shows is made of tokens of which all, up to the end of the
input, are read as a type; and that type differs from the first in places and in the decorators of
members only. -/
theorem type_of_display {source : String} {program : Program}
    (parsed : parseText source = .ok program) :
    ∀ type ∈ program.types, ∃ tokens last again,
      tokenize type.display = .ok (tokens ++ [last]) ∧ last.isEnd = true ∧
      (Grammar.type (tokens ++ [last])).found = some (again, tokens.length) ∧
      again.bare = type.bare := by
  intro type member
  obtain ⟨_, made, parsed⟩ := exists_tokens_of_parseText parsed
  have regular := Program.regular_types
    (Program.regular_of_lexed (lexed_of_tokenize made) parsed) type member
  have writes := type.writes regular .nil nofun
  simp only [List.append_nil] at writes
  obtain ⟨tokens, last, lexes, ended, spells⟩ := writes.lexes Position.start
  have ends : Peg.EndsType [last].head? := by
    rintro _ ⟨⟩
    have kind : last.kind = .endOfInput := by simpa [Token.isEnd] using ended
    constructor <;> simp [Token.isSymbol, kind]
  obtain ⟨again, reads, same⟩ := type.reads regular spells [last] ends
  exact ⟨tokens, last, again, tokenize_of_lexes lexes, ended, SchemaType.found_of_reads reads, same⟩

/-- A map to an object with an optional member whose type is called `map`. -/
theorem type_of_display_of_map :
    let inner := SchemaType.object ⟨1, 18⟩
      [⟨⟨1, 19⟩, [], "b", true, .foreign ⟨1, 22⟩ "map"⟩]
    let type := SchemaType.map ⟨1, 6⟩ .string inner
    ∃ tokens last again,
      tokenize "map<string, \x7b b?: map; \x7d>" = .ok (tokens ++ [last]) ∧ last.isEnd = true ∧
      (Grammar.type (tokens ++ [last])).found = some (again, tokens.length) ∧
      again.bare = type.bare := by
  intro inner type
  have made : tokenize "f(a: map<string, \x7bb?:map;\x7d>) \x7b\x7d" =
      .ok [⟨.identifier, "f", ⟨1, 1⟩⟩, ⟨.symbol, "(", ⟨1, 2⟩⟩, ⟨.identifier, "a", ⟨1, 3⟩⟩,
        ⟨.symbol, ":", ⟨1, 4⟩⟩, ⟨.identifier, "map", ⟨1, 6⟩⟩, ⟨.symbol, "<", ⟨1, 9⟩⟩,
        ⟨.identifier, "string", ⟨1, 10⟩⟩, ⟨.symbol, ",", ⟨1, 16⟩⟩, ⟨.symbol, "\x7b", ⟨1, 18⟩⟩,
        ⟨.identifier, "b", ⟨1, 19⟩⟩, ⟨.symbol, "?", ⟨1, 20⟩⟩, ⟨.symbol, ":", ⟨1, 21⟩⟩,
        ⟨.identifier, "map", ⟨1, 22⟩⟩, ⟨.symbol, ";", ⟨1, 25⟩⟩, ⟨.symbol, "\x7d", ⟨1, 26⟩⟩,
        ⟨.symbol, ">", ⟨1, 27⟩⟩, ⟨.symbol, ")", ⟨1, 28⟩⟩, ⟨.symbol, "\x7b", ⟨1, 30⟩⟩,
        ⟨.symbol, "\x7d", ⟨1, 31⟩⟩, Token.endAt ⟨1, 32⟩] := by
    decide +kernel
  have parsed : parseText "f(a: map<string, \x7bb?:map;\x7d>) \x7b\x7d" =
      .ok ⟨[.function ⟨⟨1, 1⟩, [], "f", [⟨⟨1, 3⟩, [], "a", false, type⟩], none, []⟩]⟩ := by
    rw [parseText, made]
    rfl
  exact type_of_display parsed type List.mem_cons_self

end CollectionSchema
