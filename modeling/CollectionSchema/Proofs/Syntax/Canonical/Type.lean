import CollectionSchema.Proofs.Json.RoundTrip
import CollectionSchema.Proofs.Syntax.Range
import CollectionSchema.Syntax.Decode

/-!
# The documents of types and fields

Every part of a program whose places are in range is written as a canonical document
of its shape, every canonical document is written for such a part, and a part is read
back from its document.  This is shown here for places, decorators, types and fields.
The latter two refer to each other, so both go by one recursion: over the type when it
is written and read back, and over the depth of the document when a type is found for
it.
-/

set_option autoImplicit false

namespace CollectionSchema

open Json (Canonical CoveredBelow FormOf Represents Slot)

/-! ## The table of shapes -/

/-- The names in every form are apart. -/
theorem Part.form_distinct (part : Part) : (Part.form part).Distinct := by
  cases part <;> first | trivial | (show List.Nodup _; decide)

/-- No part has defaults, so none of them needs room. -/
theorem Part.form_fitsIn (part : Part) : (Part.form part).FitsIn Part.form (fun _ => 0) 0 := by
  have slot : ∀ slot : Slot Part, (∀ value, slot.presence ≠ .defaulted value) →
      slot.FitsIn Part.form (fun _ => 0) 0 :=
    fun slot none => ⟨slot.shape.fitsIn_zero 0, fun value same => absurd same (none value)⟩
  cases part <;>
    first
    | exact fun _ _ shape _ => shape.fitsIn_zero 0
    | exact fun shape _ => shape.fitsIn_zero 0
    | (simp only [Json.Form.FitsIn, Part.form, List.forall_mem_cons]
       simp [slot, Part.slot, Part.slots, Slot.required])

theorem Part.canonical_iff {part : Part} {doc : Json} :
    Canonical Part.form part.shape doc ↔ FormOf (Canonical Part.form) part.form doc :=
  Canonical.named_iff

/-! ## Words -/

theorem DecoratorName.canonical_iff {doc : Json} :
    Canonical Part.form Part.decoratorName.shape doc ↔
      ∃ name : DecoratorName, .string name.word = doc :=
  Json.canonical_words_iff rfl fun name => by cases name <;> decide

theorem BasicType.canonical_iff {doc : Json} :
    Canonical Part.form Part.basicType.shape doc ↔ ∃ type : BasicType, .string type.word = doc :=
  Json.canonical_words_iff rfl fun type => by cases type <;> decide

theorem SortOrder.canonical_iff {doc : Json} :
    Canonical Part.form Part.sortOrder.shape doc ↔ ∃ order : SortOrder, .string order.word = doc :=
  Json.canonical_words_iff rfl fun order => by cases order <;> decide

theorem Operator.canonical_iff {doc : Json} :
    Canonical Part.form Part.operator.shape doc ↔
      ∃ operator : Operator, .string operator.name = doc :=
  Json.canonical_words_iff rfl fun operator => by cases operator <;> decide

/-! ## Places and decorators -/

theorem Position.written (place : Position) (fits : place.InRange) :
    Canonical Part.form Part.position.shape place.toJson :=
  Part.canonical_iff.mpr (.record
    (.cons (Canonical.natural_iff.mpr ⟨_, fits.1, rfl⟩)
      (.cons (Canonical.natural_iff.mpr ⟨_, fits.2, rfl⟩) .none)))

theorem Position.readBack (place : Position) :
    Position.ofJson? place.toJson = some place := by
  simp [toJson, ofJson?]

theorem Position.covered (doc : Json) (canonical : Canonical Part.form Part.position.shape doc) :
    ∃ place : Position, place.InRange ∧ place.toJson = doc := by
  rw [Part.canonical_iff] at canonical
  simp only [Part.form, Json.formOf_record_iff, Json.fieldsOf_required_iff,
    Json.fieldsOf_nil_iff, Canonical.natural_iff] at canonical
  obtain ⟨_, ⟨_, _, ⟨line, short, rfl⟩, ⟨_, _, ⟨column, narrow, rfl⟩, rfl, rfl⟩, rfl⟩, rfl⟩ :=
    canonical
  exact ⟨⟨line, column⟩, ⟨short, narrow⟩, rfl⟩

theorem Decorator.written (decorator : Decorator) (fits : decorator.InRange) :
    Canonical Part.form Part.decorator.shape decorator.toJson :=
  Part.canonical_iff.mpr (.record (.cons (Position.written _ fits)
    (.cons (DecoratorName.canonical_iff.mpr ⟨decorator.name, rfl⟩)
      (.cons (Canonical.texts _) .none))))

theorem Decorator.readBack (decorator : Decorator) :
    Decorator.ofJson? decorator.toJson = some decorator := by
  simp [toJson, ofJson?, Position.readBack, DecoratorName.ofWord?_word,
    Json.list?_text?_ofList_string]

theorem Decorator.covered (doc : Json) (canonical : Canonical Part.form Part.decorator.shape doc) :
    ∃ decorator : Decorator, decorator.InRange ∧ decorator.toJson = doc := by
  rw [Part.canonical_iff] at canonical
  simp only [Part.form, Part.slot, Json.formOf_record_iff, Json.fieldsOf_required_iff,
    Json.fieldsOf_nil_iff] at canonical
  obtain ⟨_, ⟨_, _, place, ⟨_, _, named, ⟨_, _, texts, rfl, rfl⟩, rfl⟩, rfl⟩, rfl⟩ := canonical
  obtain ⟨position, fits, rfl⟩ := Position.covered _ place
  obtain ⟨name, rfl⟩ := DecoratorName.canonical_iff.mp named
  obtain ⟨arguments, rfl⟩ := texts.exists_texts
  exact ⟨⟨position, name, arguments⟩, fits, rfl⟩

/-! ## Types and fields -/

theorem SchemaType.written_of_kind {position : Position} (fits : position.InRange) {kind : Json}
    (content : Canonical Part.form Part.typeKind.shape kind) :
    Canonical Part.form Part.type.shape (.object [("span", position.toJson), ("kind", kind)]) :=
  Part.canonical_iff.mpr
    (.record (.cons (Position.written position fits) (.cons content .none)))

mutual

theorem SchemaType.written : ∀ type : SchemaType, type.InRange →
    Canonical Part.form Part.type.shape type.toJson
  | .basic position type array, fits => by
      have content : Canonical Part.form Part.basicContent.shape
          (.object [("basic", .string type.word), ("array", .bool array)]) :=
        Part.canonical_iff.mpr (.record (.cons (BasicType.canonical_iff.mpr ⟨type, rfl⟩)
          (.cons (Canonical.flag_iff.mpr ⟨array, rfl⟩) .none)))
      exact SchemaType.written_of_kind fits (Part.canonical_iff.mpr (.variant (.head _) content))
  | .map position key value, fits => by
      have content : Canonical Part.form Part.mapContent.shape
          (.object [("key", .string key.word), ("value", value.toJson)]) :=
        Part.canonical_iff.mpr (.record (.cons (BasicType.canonical_iff.mpr ⟨key, rfl⟩)
          (.cons (SchemaType.written value fits.2) .none)))
      exact SchemaType.written_of_kind fits.1
        (Part.canonical_iff.mpr (.variant (.tail _ (.head _)) content))
  | .object position fields, fits => by
      have content : Canonical Part.form (.list Part.field.shape) (.array (fieldsToJson fields)) :=
        Canonical.list_iff.mpr ⟨_, fieldsWritten fields fits.2, rfl⟩
      exact SchemaType.written_of_kind fits.1
        (Part.canonical_iff.mpr (.variant (.tail _ (.tail _ (.head _))) content))
  | .foreign position name, fits =>
      SchemaType.written_of_kind fits (Part.canonical_iff.mpr
        (.variant (.tail _ (.tail _ (.tail _ (.head _)))) (Canonical.text_iff.mpr ⟨name, rfl⟩)))

theorem Field.written : ∀ field : Field, field.InRange →
    Canonical Part.form Part.field.shape field.toJson
  | ⟨position, _, name, optional, type⟩, fits =>
      Part.canonical_iff.mpr (.record (.cons (Position.written position fits.1)
        (.cons (.ofList fun value inside => Decorator.written value (fits.2.1 value inside))
          (.cons (Canonical.text_iff.mpr ⟨name, rfl⟩)
            (.cons (Canonical.flag_iff.mpr ⟨optional, rfl⟩)
              (.cons (SchemaType.written type fits.2.2) .none))))))

theorem fieldsWritten : ∀ fields : List Field, FieldsInRange fields →
    ∀ item ∈ fieldsToJson fields, Canonical Part.form Part.field.shape item
  | [], _, _, member => by cases member
  | field :: rest, fits, item, member => by
      rcases List.mem_cons.mp member with rfl | inside
      · exact Field.written field fits.1
      · exact fieldsWritten rest fits.2 item inside

end

mutual

theorem SchemaType.readBack : ∀ type : SchemaType, SchemaType.ofJson? type.toJson = some type
  | .basic position type array => by
      simp [SchemaType.toJson, SchemaType.ofJson?, Json.single, Position.readBack,
        BasicType.ofWord?_word]
  | .map position key value => by
      simp [SchemaType.toJson, SchemaType.ofJson?, Json.single, Position.readBack,
        BasicType.ofWord?_word, SchemaType.readBack value]
  | .object position fields => by
      simp [SchemaType.toJson, SchemaType.ofJson?, Json.single, Position.readBack,
        fieldsReadBack fields]
  | .foreign position name => by
      simp [SchemaType.toJson, SchemaType.ofJson?, Json.single, Position.readBack]

theorem Field.readBack : ∀ field : Field, Field.ofJson? field.toJson = some field
  | ⟨position, decorators, name, optional, type⟩ => by
      simp [Field.toJson, Field.ofJson?, Position.readBack,
        Json.list?_ofList Decorator.readBack, SchemaType.readBack type]

theorem fieldsReadBack : ∀ fields : List Field, fieldsOfJson? (fieldsToJson fields) = some fields
  | [] => rfl
  | field :: rest => by
      simp [fieldsToJson, fieldsOfJson?, Field.readBack field, fieldsReadBack rest]

end

theorem fieldsToJson_eq_map (fields : List Field) :
    fieldsToJson fields = fields.map Field.toJson := by
  induction fields with
  | nil => rfl
  | cons field rest ih => rw [fieldsToJson, ih, List.map_cons]

section Types

variable {limit : Nat}
  (types : CoveredBelow Part.form Part.type.shape SchemaType.InRange SchemaType.toJson limit)

include types

theorem SchemaType.coveredBelow_succ
    (fields : CoveredBelow Part.form Part.field.shape Field.InRange Field.toJson limit) :
    CoveredBelow Part.form Part.type.shape SchemaType.InRange SchemaType.toJson (limit + 1) := by
  intro doc less canonical
  have form := canonical.formOf_below (Nat.le_of_lt_succ less)
  simp only [Part.form, Part.slot, Json.formOf_record_iff, Json.fieldsOf_required_iff,
    Json.fieldsOf_nil_iff] at form
  obtain ⟨_, ⟨_, _, place, ⟨_, _, kind, rfl, rfl⟩, rfl⟩, rfl⟩ := form
  obtain ⟨position, fits, rfl⟩ := Position.covered _ place.2
  have choice := kind.2.formOf_below kind.1.le
  simp only [Part.form, Part.variant, Part.variants, Json.formOf_choice_iff,
    List.exists_mem_cons_iff, Json.VariantOf, List.not_mem_nil, false_and, exists_false,
    or_false] at choice
  rcases choice with ⟨_, content, rfl⟩ | ⟨_, content, rfl⟩ | ⟨_, content, rfl⟩ | ⟨_, content, rfl⟩
  · have parts := content.2.formOf_below content.1.le
    simp only [Part.form, Part.slot, Json.formOf_record_iff, Json.fieldsOf_required_iff,
      Json.fieldsOf_nil_iff] at parts
    obtain ⟨_, ⟨_, _, word, ⟨_, _, flag, rfl, rfl⟩, rfl⟩, rfl⟩ := parts
    obtain ⟨type, rfl⟩ := BasicType.canonical_iff.mp word.2
    obtain ⟨array, rfl⟩ := Canonical.flag_iff.mp flag.2
    exact ⟨.basic position type array, fits, rfl⟩
  · have parts := content.2.formOf_below content.1.le
    simp only [Part.form, Part.slot, Json.formOf_record_iff, Json.fieldsOf_required_iff,
      Json.fieldsOf_nil_iff] at parts
    obtain ⟨_, ⟨_, _, word, ⟨_, _, inner, rfl, rfl⟩, rfl⟩, rfl⟩ := parts
    obtain ⟨key, rfl⟩ := BasicType.canonical_iff.mp word.2
    obtain ⟨type, inside, rfl⟩ := types _ inner.1 inner.2
    exact ⟨.map position key type, ⟨fits, inside⟩, rfl⟩
  · obtain ⟨items, each, rfl⟩ := Canonical.list_iff.mp content.2
    obtain ⟨parts, inside, rfl⟩ := fields.list content.1.le each
    exact ⟨.object position parts, ⟨fits, fieldsInRange_iff.mpr inside⟩, by
      rw [SchemaType.toJson, fieldsToJson_eq_map]⟩
  · obtain ⟨name, rfl⟩ := Canonical.text_iff.mp content.2
    exact ⟨.foreign position name, fits, rfl⟩

theorem Field.coveredBelow_succ :
    CoveredBelow Part.form Part.field.shape Field.InRange Field.toJson (limit + 1) := by
  intro doc less canonical
  have form := canonical.formOf_below (Nat.le_of_lt_succ less)
  simp only [Part.form, Part.slot, Part.slots, Json.formOf_record_iff, Json.fieldsOf_required_iff,
    Json.fieldsOf_nil_iff] at form
  obtain ⟨_, ⟨_, _, place, ⟨_, _, marks, ⟨_, _, text, ⟨_, _, flag, ⟨_, _, inner, rfl, rfl⟩,
    rfl⟩, rfl⟩, rfl⟩, rfl⟩, rfl⟩ := form
  obtain ⟨position, fits, rfl⟩ := Position.covered _ place.2
  obtain ⟨decorators, marked, rfl⟩ := marks.2.exists_ofList_fitting Decorator.covered
  obtain ⟨name, rfl⟩ := Canonical.text_iff.mp text.2
  obtain ⟨optional, rfl⟩ := Canonical.flag_iff.mp flag.2
  obtain ⟨type, inside, rfl⟩ := types _ inner.1 inner.2
  exact ⟨⟨position, decorators, name, optional, type⟩, ⟨fits, marked, inside⟩, rfl⟩

end Types

theorem types_coveredBelow (limit : Nat) :
    CoveredBelow Part.form Part.type.shape SchemaType.InRange SchemaType.toJson limit ∧
      CoveredBelow Part.form Part.field.shape Field.InRange Field.toJson limit := by
  induction limit with
  | zero => exact ⟨Json.coveredBelow_zero, Json.coveredBelow_zero⟩
  | succ limit ih =>
      exact ⟨SchemaType.coveredBelow_succ ih.1 ih.2, Field.coveredBelow_succ ih.1⟩

theorem SchemaType.covered (doc : Json) (canonical : Canonical Part.form Part.type.shape doc) :
    ∃ type : SchemaType, type.InRange ∧ type.toJson = doc :=
  (types_coveredBelow (doc.depth + 1)).1 doc (Nat.lt_succ_self _) canonical

theorem SchemaType.represents : Represents Part.form Part.type.shape SchemaType.InRange
    SchemaType.toJson SchemaType.ofJson? :=
  ⟨SchemaType.written, SchemaType.readBack, SchemaType.covered⟩

theorem Field.covered (doc : Json) (canonical : Canonical Part.form Part.field.shape doc) :
    ∃ field : Field, field.InRange ∧ field.toJson = doc :=
  (types_coveredBelow (doc.depth + 1)).2 doc (Nat.lt_succ_self _) canonical

theorem Field.represents : Represents Part.form Part.field.shape Field.InRange
    Field.toJson Field.ofJson? :=
  ⟨Field.written, Field.readBack, Field.covered⟩

end CollectionSchema
