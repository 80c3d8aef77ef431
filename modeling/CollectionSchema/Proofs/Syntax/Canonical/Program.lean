import CollectionSchema.Proofs.Syntax.Canonical.Statement

/-!
# The documents of declarations and programs

Indexes, functions, collections and programs hold the parts that were looked at before
and lists of them, so each is written, read back and found from its components.
-/

set_option autoImplicit false

namespace CollectionSchema

open Json (Canonical Represents)

/-! ## Indexes -/

theorem IndexField.written (field : IndexField) (fits : field.InRange) :
    Canonical Part.form Part.indexField.shape field.toJson :=
  Part.canonical_iff.mpr (.record (.cons (Position.written _ fits)
    (.cons (Canonical.text_iff.mpr ⟨field.name, rfl⟩)
      (.cons (SortOrder.canonical_iff.mpr ⟨field.order, rfl⟩) .none))))

theorem IndexField.readBack (field : IndexField) :
    IndexField.ofJson? field.toJson = some field := by
  simp [IndexField.toJson, IndexField.ofJson?, Position.readBack, SortOrder.ofWord?_word]

theorem IndexField.covered (doc : Json)
    (canonical : Canonical Part.form Part.indexField.shape doc) :
    ∃ field : IndexField, field.InRange ∧ field.toJson = doc := by
  rw [Part.canonical_iff] at canonical
  simp only [Part.form, Part.slot, Json.formOf_record_iff, Json.fieldsOf_required_iff,
    Json.fieldsOf_nil_iff] at canonical
  obtain ⟨_, ⟨_, _, place, ⟨_, _, text, ⟨_, _, word, rfl, rfl⟩, rfl⟩, rfl⟩, rfl⟩ := canonical
  obtain ⟨position, fits, rfl⟩ := Position.covered _ place
  obtain ⟨name, rfl⟩ := Canonical.text_iff.mp text
  obtain ⟨order, rfl⟩ := SortOrder.canonical_iff.mp word
  exact ⟨⟨position, name, order⟩, fits, rfl⟩

theorem Index.written (index : Index) (fits : index.InRange) :
    Canonical Part.form Part.index.shape index.toJson :=
  Part.canonical_iff.mpr (.record (.cons (Position.written _ fits.1)
    (.cons (Canonical.flag_iff.mpr ⟨index.unique, rfl⟩)
      (.cons (.ofList fun value inside => IndexField.written value (fits.2 value inside)) .none))))

theorem Index.readBack (index : Index) : Index.ofJson? index.toJson = some index := by
  simp [Index.toJson, Index.ofJson?, Position.readBack, Json.list?_ofList IndexField.readBack]

theorem Index.covered (doc : Json) (canonical : Canonical Part.form Part.index.shape doc) :
    ∃ index : Index, index.InRange ∧ index.toJson = doc := by
  rw [Part.canonical_iff] at canonical
  simp only [Part.form, Part.slot, Part.slots, Json.formOf_record_iff,
    Json.fieldsOf_required_iff, Json.fieldsOf_nil_iff] at canonical
  obtain ⟨_, ⟨_, _, place, ⟨_, _, flag, ⟨_, _, list, rfl, rfl⟩, rfl⟩, rfl⟩, rfl⟩ := canonical
  obtain ⟨position, fits, rfl⟩ := Position.covered _ place
  obtain ⟨unique, rfl⟩ := Canonical.flag_iff.mp flag
  obtain ⟨fields, inside, rfl⟩ := list.exists_ofList_fitting IndexField.covered
  exact ⟨⟨position, unique, fields⟩, ⟨fits, inside⟩, rfl⟩

theorem Index.represents : Represents Part.form Part.index.shape Index.InRange
    Index.toJson Index.ofJson? :=
  ⟨Index.written, Index.readBack, Index.covered⟩

/-! ## Functions and collections -/

/-- The result type of a function is written when there is one, and null stands for it
otherwise. -/
theorem returnType_written (name : String) {type : Option SchemaType}
    (fits : ∀ given ∈ type, given.InRange) :
    Json.SlotOf (Canonical Part.form) ⟨name, Part.type.shape, .nullable⟩
      (Json.ofOption SchemaType.toJson type) := by
  cases type with
  | none => exact .null
  | some given => exact .filled (SchemaType.written given (fits given rfl))

theorem returnType_readBack (type : Option SchemaType) :
    Json.option? SchemaType.ofJson? (Json.ofOption SchemaType.toJson type) = some type := by
  cases type with
  | none => rfl
  | some type =>
      have read := SchemaType.readBack type
      cases type <;> simp [Json.ofOption, Json.option?, SchemaType.toJson] at read ⊢ <;> exact read

theorem returnType_covered {doc : Json}
    (result : Canonical Part.form Part.type.shape doc ∨ doc = .null) :
    ∃ type : Option SchemaType, (∀ given ∈ type, given.InRange) ∧
      Json.ofOption SchemaType.toJson type = doc := by
  rcases result with output | rfl
  · obtain ⟨type, typed, rfl⟩ := SchemaType.covered _ output
    exact ⟨some type, fun _ same => Option.some.inj same ▸ typed, rfl⟩
  · refine ⟨none, fun given absent => ?_, rfl⟩
    cases absent

theorem Function.written (function : Function) (fits : function.InRange) :
    Canonical Part.form Part.function.shape function.toJson := by
  obtain ⟨place, marks, parameters, result, body⟩ := fits
  exact Part.canonical_iff.mpr (.record (.cons (Position.written _ place)
    (.cons (.ofList fun value inside => Decorator.written value (marks value inside))
      (.cons (Canonical.text_iff.mpr ⟨function.name, rfl⟩)
        (.cons (.ofList fun value inside => Field.written value (parameters value inside))
          (.written (returnType_written "returnType" result)
            (.cons (.ofList fun value inside => Statement.written value (body value inside))
              .none)))))))

theorem Function.readBack (function : Function) :
    Function.ofJson? function.toJson = some function := by
  simp [Function.toJson, Function.ofJson?, Position.readBack,
    Json.list?_ofList Decorator.readBack, Json.list?_ofList Field.readBack, returnType_readBack,
    Json.list?_ofList Statement.readBack]

theorem Function.covered (doc : Json) (canonical : Canonical Part.form Part.function.shape doc) :
    ∃ function : Function, function.InRange ∧ function.toJson = doc := by
  rw [Part.canonical_iff] at canonical
  simp only [Part.form, Part.slot, Part.slots, Json.formOf_record_iff,
    Json.fieldsOf_required_iff, Json.fieldsOf_nullable_iff, Json.fieldsOf_nil_iff] at canonical
  obtain ⟨_, ⟨_, _, place, ⟨_, _, marks, ⟨_, _, text, ⟨_, _, inputs, ⟨_, _, result,
    ⟨_, _, list, rfl, rfl⟩, rfl⟩, rfl⟩, rfl⟩, rfl⟩, rfl⟩, rfl⟩ := canonical
  obtain ⟨position, fits, rfl⟩ := Position.covered _ place
  obtain ⟨decorators, marked, rfl⟩ := marks.exists_ofList_fitting Decorator.covered
  obtain ⟨name, rfl⟩ := Canonical.text_iff.mp text
  obtain ⟨parameters, named, rfl⟩ := inputs.exists_ofList_fitting Field.covered
  obtain ⟨statements, inside, rfl⟩ := list.exists_ofList_fitting Statement.covered
  obtain ⟨type, typed, rfl⟩ := returnType_covered result
  exact ⟨⟨position, decorators, name, parameters, type, statements⟩,
    ⟨fits, marked, named, typed, inside⟩, rfl⟩

theorem Item.written (item : Item) (fits : item.InRange) :
    Canonical Part.form Part.item.shape item.toJson := by
  refine Part.canonical_iff.mpr ?_
  match item, fits with
  | .field declared, fits => exact .variant (.head _) (Field.written declared fits)
  | .function declared, fits =>
      exact .variant (.tail _ (.head _)) (Function.written declared fits)
  | .index declared, fits =>
      exact .variant (.tail _ (.tail _ (.head _))) (Index.written declared fits)

theorem Item.readBack (item : Item) : Item.ofJson? item.toJson = some item := by
  cases item with
  | field declared =>
      simp [Item.toJson, Item.ofJson?, Json.single, Field.readBack]
  | function declared =>
      simp [Item.toJson, Item.ofJson?, Json.single, Function.readBack]
  | index declared =>
      simp [Item.toJson, Item.ofJson?, Json.single, Index.readBack]

theorem Item.covered (doc : Json) (canonical : Canonical Part.form Part.item.shape doc) :
    ∃ item : Item, item.InRange ∧ item.toJson = doc := by
  rw [Part.canonical_iff] at canonical
  simp only [Part.form, Part.variant, Json.formOf_choice_iff, List.exists_mem_cons_iff,
    Json.VariantOf, List.not_mem_nil, false_and, exists_false, or_false] at canonical
  rcases canonical with ⟨_, content, rfl⟩ | ⟨_, content, rfl⟩ | ⟨_, content, rfl⟩
  · obtain ⟨declared, fits, rfl⟩ := Field.covered _ content
    exact ⟨.field declared, fits, rfl⟩
  · obtain ⟨declared, fits, rfl⟩ := Function.covered _ content
    exact ⟨.function declared, fits, rfl⟩
  · obtain ⟨declared, fits, rfl⟩ := Index.covered _ content
    exact ⟨.index declared, fits, rfl⟩

theorem Collection.written (collection : Collection) (fits : collection.InRange) :
    Canonical Part.form Part.collection.shape collection.toJson :=
  Part.canonical_iff.mpr (.record (.cons (Position.written _ fits.1)
    (.cons (.ofList fun value inside => Decorator.written value (fits.2.1 value inside))
      (.cons (Canonical.text_iff.mpr ⟨collection.name, rfl⟩)
        (.cons (.ofList fun value inside => Item.written value (fits.2.2 value inside)) .none)))))

theorem Collection.readBack (collection : Collection) :
    Collection.ofJson? collection.toJson = some collection := by
  simp [Collection.toJson, Collection.ofJson?, Position.readBack,
    Json.list?_ofList Decorator.readBack, Json.list?_ofList Item.readBack]

theorem Collection.covered (doc : Json)
    (canonical : Canonical Part.form Part.collection.shape doc) :
    ∃ collection : Collection, collection.InRange ∧ collection.toJson = doc := by
  rw [Part.canonical_iff] at canonical
  simp only [Part.form, Part.slot, Part.slots, Json.formOf_record_iff,
    Json.fieldsOf_required_iff, Json.fieldsOf_nil_iff] at canonical
  obtain ⟨_, ⟨_, _, place, ⟨_, _, marks, ⟨_, _, text, ⟨_, _, list, rfl, rfl⟩, rfl⟩, rfl⟩, rfl⟩,
    rfl⟩ := canonical
  obtain ⟨position, fits, rfl⟩ := Position.covered _ place
  obtain ⟨decorators, marked, rfl⟩ := marks.exists_ofList_fitting Decorator.covered
  obtain ⟨name, rfl⟩ := Canonical.text_iff.mp text
  obtain ⟨items, inside, rfl⟩ := list.exists_ofList_fitting Item.covered
  exact ⟨⟨position, decorators, name, items⟩, ⟨fits, marked, inside⟩, rfl⟩

/-! ## Programs -/

theorem Declaration.written (declaration : Declaration) (fits : declaration.InRange) :
    Canonical Part.form Part.declaration.shape declaration.toJson := by
  refine Part.canonical_iff.mpr ?_
  match declaration, fits with
  | .collection declared, fits =>
      exact .variant (.head _) (Collection.written declared fits)
  | .function declared, fits =>
      exact .variant (.tail _ (.head _)) (Function.written declared fits)

theorem Declaration.readBack (declaration : Declaration) :
    Declaration.ofJson? declaration.toJson = some declaration := by
  cases declaration with
  | collection declared =>
      simp [Declaration.toJson, Declaration.ofJson?, Json.single, Collection.readBack]
  | function declared =>
      simp [Declaration.toJson, Declaration.ofJson?, Json.single, Function.readBack]

theorem Declaration.covered (doc : Json)
    (canonical : Canonical Part.form Part.declaration.shape doc) :
    ∃ declaration : Declaration, declaration.InRange ∧ declaration.toJson = doc := by
  rw [Part.canonical_iff] at canonical
  simp only [Part.form, Part.variant, Json.formOf_choice_iff, List.exists_mem_cons_iff,
    Json.VariantOf, List.not_mem_nil, false_and, exists_false, or_false] at canonical
  rcases canonical with ⟨_, content, rfl⟩ | ⟨_, content, rfl⟩
  · obtain ⟨declared, fits, rfl⟩ := Collection.covered _ content
    exact ⟨.collection declared, fits, rfl⟩
  · obtain ⟨declared, fits, rfl⟩ := Function.covered _ content
    exact ⟨.function declared, fits, rfl⟩

theorem Program.written (program : Program) (fits : program.InRange) :
    Canonical Part.form Part.program.shape program.toJson :=
  Part.canonical_iff.mpr (.record
    (.cons (.ofList fun value inside => Declaration.written value (fits value inside)) .none))

theorem Program.readBack (program : Program) : Program.ofJson? program.toJson = some program := by
  simp [Program.toJson, Program.ofJson?, Json.list?_ofList Declaration.readBack]

theorem Program.covered (doc : Json) (canonical : Canonical Part.form Part.program.shape doc) :
    ∃ program : Program, program.InRange ∧ program.toJson = doc := by
  rw [Part.canonical_iff] at canonical
  simp only [Part.form, Part.slots, Json.formOf_record_iff, Json.fieldsOf_required_iff,
    Json.fieldsOf_nil_iff] at canonical
  obtain ⟨_, ⟨_, _, list, rfl, rfl⟩, rfl⟩ := canonical
  obtain ⟨declarations, inside, rfl⟩ := list.exists_ofList_fitting Declaration.covered
  exact ⟨⟨declarations⟩, inside, rfl⟩

theorem Program.represents : Represents Part.form Part.program.shape Program.InRange
    Program.toJson Program.ofJson? :=
  ⟨Program.written, Program.readBack, Program.covered⟩

end CollectionSchema
