import CollectionSchema.Metadata.Decode
import CollectionSchema.Proofs.Json.RoundTrip

/-!
# The documents of metadata

Every part of a metadata document is written as a canonical document of its shape,
every canonical document is written for such a part, and a part is read back from its
document.  Types are the only parts that can lie inside each other without end, and
they have no defaults that add to their depth.
-/

set_option autoImplicit false

namespace CollectionSchema.Metadata

open Json (Canonical CoveredBelow FieldsOf FormOf Slot)

/-! ## The table of shapes -/

/-- The names in every form are apart. -/
theorem Part.form_distinct (part : Part) : (Part.form part).Distinct := by
  cases part <;>
    first
    | (show List.Nodup _; decide)
    | simp [Part.form, Json.Form.Distinct, Part.text, Part.optionalText, Part.optionalFlag,
        Part.optionalList, Part.slot, Part.path, Part.directiveSlots, Slot.required]

theorem Part.canonical_iff {part : Part} {doc : Json} :
    Canonical Part.form part.shape doc ↔ FormOf (Canonical Part.form) part.form doc :=
  Canonical.named_iff

theorem Part.namespace_canonical_iff {doc : Json} :
    Canonical Part.form Part.namespace.shape doc ↔
      ∃ space, Part.namespaceJson space = doc := by
  rw [Part.canonical_iff]
  simp only [Part.form, Part.text, Json.formOf_stamped_iff, Json.fieldsOf_required_iff,
    Json.fieldsOf_nil_iff]
  constructor
  · rintro ⟨_, ⟨kind, _, _, ⟨value, _, content, rfl, rfl⟩, rfl⟩, stamped, rfl⟩
    obtain ⟨space, rfl⟩ := Canonical.text_iff.mp content
    cases stamped
    exact ⟨space, rfl⟩
  · rintro ⟨space, rfl⟩
    exact ⟨_, ⟨_, _, Canonical.text_iff.mpr ⟨"namespace", rfl⟩,
      ⟨_, _, Canonical.text_iff.mpr ⟨space, rfl⟩, rfl, rfl⟩, rfl⟩, rfl, rfl⟩

/-! ## Room for defaults -/

/-- How deep the documents of a part must be allowed to be, so that there is room for its defaults:
an attribute for an empty list, an entry for an attribute in a list. -/
def Part.needs : Part → Nat
  | .node => 4
  | .attribute => 2
  | _ => 0

section Slots

variable {limit : Nat}

theorem Part.required_fitsIn (name : String) {shape : Json.Shape Part}
    (fits : shape.FitsIn Part.needs limit) :
    (Slot.required name shape).FitsIn Part.form Part.needs limit :=
  ⟨fits, fun _ none => by cases none⟩

theorem Part.optionalText_fitsIn (name : String) :
    (Part.optionalText name).FitsIn Part.form Part.needs limit := by
  refine ⟨trivial, fun value same => ?_⟩
  cases same
  exact ⟨Canonical.text_iff.mpr ⟨"", rfl⟩, Nat.zero_le _⟩

theorem Part.optionalFlag_fitsIn (name : String) :
    (Part.optionalFlag name).FitsIn Part.form Part.needs limit := by
  refine ⟨trivial, fun value same => ?_⟩
  cases same
  exact ⟨Canonical.flag_iff.mpr ⟨false, rfl⟩, Nat.zero_le _⟩

theorem Part.optionalList_fitsIn (name : String) {part : Part} (fits : part.needs ≤ limit) :
    (Part.optionalList name part).FitsIn Part.form Part.needs (limit + 1) := by
  refine ⟨fits, fun value same => ?_⟩
  cases same
  exact ⟨Canonical.list_iff.mpr ⟨[], fun _ none => (List.not_mem_nil none).elim, rfl⟩,
    Nat.succ_le_succ (Nat.zero_le limit)⟩

theorem Part.namespace_fitsIn :
    (⟨"namespace", Part.namespace.shape, .defaulted (Part.namespaceJson "")⟩ :
      Slot Part).FitsIn Part.form Part.needs (limit + 1) := by
  refine ⟨Nat.zero_le _, fun value same => ?_⟩
  cases same
  exact ⟨Part.namespace_canonical_iff.mpr ⟨"", rfl⟩, Nat.succ_le_succ (Nat.zero_le limit)⟩

end Slots

/-- Every part leaves room for its defaults. -/
theorem Part.form_fitsIn (part : Part) :
    (Part.form part).FitsIn Part.form Part.needs (part.needs - 1) := by
  have text (limit) (name) : (Part.text name).FitsIn Part.form Part.needs limit :=
    Part.required_fitsIn name trivial
  have path (limit) (name) : (Part.path name).FitsIn Part.form Part.needs limit :=
    Part.required_fitsIn name trivial
  have slot (limit) (name) (part : Part) (none : part.needs = 0) :
      (Part.slot name part).FitsIn Part.form Part.needs limit :=
    Part.required_fitsIn name (none ▸ Nat.zero_le limit : part.needs ≤ limit)
  have fields (limit) (name) :
      (Slot.required name (.list Part.objectField.shape)).FitsIn Part.form Part.needs limit :=
    Part.required_fitsIn name (Nat.zero_le _)
  have argument (limit) (name) :
      (⟨name, Part.directiveArgument.shape, .omittable⟩ : Slot Part).FitsIn Part.form Part.needs
        limit :=
    ⟨Nat.zero_le _, fun _ none => by cases none⟩
  cases part <;>
    simp (disch := decide) [Json.Form.FitsIn, Part.form, Part.needs, Part.directiveSlots, text,
      path, slot, fields, argument, Part.optionalText_fitsIn, Part.optionalFlag_fitsIn,
      Part.optionalList_fitsIn, Part.namespace_fitsIn, Json.unitVariant]

/-! ## Words -/

theorem PrimitiveType.canonical_iff {doc : Json} :
    Canonical Part.form Part.primitiveType.shape doc ↔
      ∃ type : PrimitiveType, .string type.word = doc :=
  Json.canonical_words_iff rfl fun type => by cases type <;> decide

theorem sortOrder_canonical_iff {doc : Json} :
    Canonical Part.form Part.sortOrder.shape doc ↔ ∃ order : SortOrder, .string order.word = doc :=
  Json.canonical_words_iff rfl fun order => by cases order <;> decide

/-! ## Types -/

mutual

theorem DataType.written : ∀ type : DataType,
    Canonical Part.form Part.dataType.shape type.toJson
  | .primitive type =>
      Part.canonical_iff.mpr (.tagged (.head _)
        (.cons (PrimitiveType.canonical_iff.mpr ⟨type, rfl⟩) .none))
  | .array item =>
      Part.canonical_iff.mpr (.tagged (.tail _ (.head _)) (.cons (DataType.written item) .none))
  | .map key value =>
      Part.canonical_iff.mpr (.tagged (.tail _ (.tail _ (.head _)))
        (.cons (DataType.written key) (.cons (DataType.written value) .none)))
  | .object fields => by
      have content : Canonical Part.form (.list Part.objectField.shape)
          (.array (objectFieldsToJson fields)) :=
        Canonical.list_iff.mpr ⟨_, objectFieldsWritten fields, rfl⟩
      exact Part.canonical_iff.mpr (.tagged (.tail _ (.tail _ (.tail _ (.head _))))
        (.cons content .none))
  | .record =>
      Part.canonical_iff.mpr (.tagged (.tail _ (.tail _ (.tail _ (.tail _ (.head _))))) .none)
  | .foreignRecord collection =>
      Part.canonical_iff.mpr (.tagged
        (.tail _ (.tail _ (.tail _ (.tail _ (.tail _ (.head _))))))
        (.cons (Canonical.text_iff.mpr ⟨collection, rfl⟩) .none))
  | .publicKey =>
      Part.canonical_iff.mpr (.tagged
        (.tail _ (.tail _ (.tail _ (.tail _ (.tail _ (.tail _ (.head _))))))) .none)

theorem ObjectField.written : ∀ field : ObjectField,
    Canonical Part.form Part.objectField.shape field.toJson
  | ⟨name, type, required⟩ =>
      Part.canonical_iff.mpr (.record (.cons (Canonical.text_iff.mpr ⟨name, rfl⟩)
        (.cons (DataType.written type) (.cons (Canonical.flag_iff.mpr ⟨required, rfl⟩) .none))))

theorem objectFieldsWritten : ∀ fields : List ObjectField,
    ∀ item ∈ objectFieldsToJson fields, Canonical Part.form Part.objectField.shape item
  | [], _, member => by cases member
  | field :: rest, item, member => by
      rcases List.mem_cons.mp member with rfl | inside
      · exact ObjectField.written field
      · exact objectFieldsWritten rest item inside

end

mutual

theorem DataType.readBack : ∀ type : DataType, DataType.ofJson? type.toJson = some type
  | .primitive type => by
      simp [DataType.toJson, DataType.ofJson?, tagged, PrimitiveType.ofWord?_word]
  | .array item => by
      simp [DataType.toJson, DataType.ofJson?, tagged, DataType.readBack item]
  | .map key value => by
      simp [DataType.toJson, DataType.ofJson?, tagged, DataType.readBack key,
        DataType.readBack value]
  | .object fields => by
      simp [DataType.toJson, DataType.ofJson?, tagged, objectFieldsReadBack fields]
  | .record | .foreignRecord _ | .publicKey => by
      simp [DataType.toJson, DataType.ofJson?, tagged]

theorem ObjectField.readBack : ∀ field : ObjectField,
    ObjectField.ofJson? field.toJson = some field
  | ⟨name, type, required⟩ => by
      simp [ObjectField.toJson, ObjectField.ofJson?, DataType.readBack type]

theorem objectFieldsReadBack : ∀ fields : List ObjectField,
    objectFieldsOfJson? (objectFieldsToJson fields) = some fields
  | [] => rfl
  | field :: rest => by
      simp [objectFieldsToJson, objectFieldsOfJson?, ObjectField.readBack field,
        objectFieldsReadBack rest]

end

theorem objectFieldsToJson_eq_map (fields : List ObjectField) :
    objectFieldsToJson fields = fields.map ObjectField.toJson := by
  induction fields with
  | nil => rfl
  | cons field rest ih => rw [objectFieldsToJson, ih, List.map_cons]

section Covered

variable {limit : Nat}
  (types : CoveredBelow Part.form Part.dataType.shape (fun _ => True) DataType.toJson limit)

include types

theorem DataType.coveredBelow_succ
    (fields : CoveredBelow Part.form Part.objectField.shape (fun _ => True) ObjectField.toJson
      limit) :
    CoveredBelow Part.form Part.dataType.shape (fun _ => True) DataType.toJson (limit + 1) := by
  intro doc less canonical
  have form := canonical.formOf_below (Nat.le_of_lt_succ less)
  simp only [Part.form, Part.slot, Part.text, Json.formOf_tagged_iff, List.exists_mem_cons_iff,
    Json.fieldsOf_required_iff, Json.fieldsOf_nil_iff, List.not_mem_nil, false_and, exists_false,
    or_false, Option.not_mem_none] at form
  rcases form with ⟨_, ⟨_, _, word, rfl, rfl⟩, rfl⟩ | ⟨_, ⟨_, _, inner, rfl, rfl⟩, rfl⟩ |
    ⟨_, ⟨_, _, left, ⟨_, _, right, rfl, rfl⟩, rfl⟩, rfl⟩ | ⟨_, ⟨_, _, list, rfl, rfl⟩, rfl⟩ |
    ⟨_, rfl, rfl⟩ | ⟨_, ⟨_, _, text, rfl, rfl⟩, rfl⟩ | ⟨_, rfl, rfl⟩
  · obtain ⟨type, rfl⟩ := PrimitiveType.canonical_iff.mp word.2
    exact ⟨.primitive type, trivial, rfl⟩
  · obtain ⟨item, _, rfl⟩ := types _ inner.1 inner.2
    exact ⟨.array item, trivial, rfl⟩
  · obtain ⟨first, _, rfl⟩ := types _ left.1 left.2
    obtain ⟨second, _, rfl⟩ := types _ right.1 right.2
    exact ⟨.map first second, trivial, rfl⟩
  · obtain ⟨items, each, rfl⟩ := Canonical.list_iff.mp list.2
    obtain ⟨parts, _, rfl⟩ := fields.list list.1.le each
    exact ⟨.object parts, trivial, by rw [DataType.toJson, objectFieldsToJson_eq_map]; rfl⟩
  · exact ⟨.record, trivial, rfl⟩
  · obtain ⟨collection, rfl⟩ := Canonical.text_iff.mp text.2
    exact ⟨.foreignRecord collection, trivial, rfl⟩
  · exact ⟨.publicKey, trivial, rfl⟩

theorem ObjectField.coveredBelow_succ :
    CoveredBelow Part.form Part.objectField.shape (fun _ => True) ObjectField.toJson
      (limit + 1) := by
  intro doc less canonical
  have form := canonical.formOf_below (Nat.le_of_lt_succ less)
  simp only [Part.form, Part.slot, Part.text, Part.optionalFlag, Json.formOf_record_iff,
    Json.fieldsOf_required_iff, Json.fieldsOf_defaulted_iff, Json.fieldsOf_nil_iff] at form
  obtain ⟨_, ⟨_, _, text, ⟨_, _, inner, ⟨_, _, flag, rfl, rfl⟩, rfl⟩, rfl⟩, rfl⟩ := form
  obtain ⟨name, rfl⟩ := Canonical.text_iff.mp text.2
  obtain ⟨type, _, rfl⟩ := types _ inner.1 inner.2
  obtain ⟨required, rfl⟩ := Canonical.flag_iff.mp flag.2
  exact ⟨⟨name, type, required⟩, trivial, rfl⟩

end Covered

theorem dataTypes_coveredBelow (limit : Nat) :
    CoveredBelow Part.form Part.dataType.shape (fun _ => True) DataType.toJson limit ∧
      CoveredBelow Part.form Part.objectField.shape (fun _ => True) ObjectField.toJson limit := by
  induction limit with
  | zero => exact ⟨Json.coveredBelow_zero, Json.coveredBelow_zero⟩
  | succ limit ih =>
      exact ⟨DataType.coveredBelow_succ ih.1 ih.2, ObjectField.coveredBelow_succ ih.1⟩

theorem DataType.covered (doc : Json) (canonical : Canonical Part.form Part.dataType.shape doc) :
    ∃ type : DataType, type.toJson = doc := by
  obtain ⟨type, -, same⟩ :=
    (dataTypes_coveredBelow (doc.depth + 1)).1 doc (Nat.lt_succ_self _) canonical
  exact ⟨type, same⟩

/-! ## Directives -/

theorem DirectiveArgument.written (argument : DirectiveArgument) :
    Canonical Part.form Part.directiveArgument.shape argument.toJson := by
  refine Part.canonical_iff.mpr ?_
  cases argument with
  | fieldReference path =>
      exact .tagged (.head _) (.cons (Canonical.texts path) .none)
  | unknown => exact .unknown

theorem DirectiveArgument.readBack (argument : DirectiveArgument) :
    DirectiveArgument.ofJson? argument.toJson = some argument := by
  cases argument with
  | fieldReference path => simp [toJson, ofJson?, tagged, Json.list?_text?_ofList_string]
  | unknown => rfl

theorem DirectiveArgument.covered (doc : Json)
    (canonical : Canonical Part.form Part.directiveArgument.shape doc) :
    ∃ argument : DirectiveArgument, argument.toJson = doc := by
  rw [Part.canonical_iff] at canonical
  simp only [Part.form, Part.path, Json.formOf_tagged_iff, List.exists_mem_cons_iff,
    Json.fieldsOf_required_iff, Json.fieldsOf_nil_iff, List.not_mem_nil, false_and, exists_false,
    or_false, Option.mem_some_iff, exists_eq_left'] at canonical
  rcases canonical with ⟨_, ⟨_, _, texts, rfl, rfl⟩, rfl⟩ | rfl
  · obtain ⟨path, rfl⟩ := texts.exists_texts
    exact ⟨.fieldReference path, rfl⟩
  · exact ⟨.unknown, rfl⟩

theorem Directive.fieldsOf_members (directive : Directive) :
    FieldsOf (Canonical Part.form) Part.directiveSlots directive.members := by
  obtain ⟨name, _ | argument⟩ := directive
  · exact .cons (Canonical.text_iff.mpr ⟨name, rfl⟩) (.omitted rfl .none)
  · exact .cons (Canonical.text_iff.mpr ⟨name, rfl⟩)
      (.cons (DirectiveArgument.written argument) .none)

/-- The members that describe a directive are the same with and without a kind. -/
theorem Directive.fieldsOf_iff {members : List (String × Json)} :
    FieldsOf (Canonical Part.form) Part.directiveSlots members ↔
      ∃ directive : Directive, directive.members = members := by
  constructor
  · simp only [Part.directiveSlots, Part.text, Json.fieldsOf_required_iff,
      Json.fieldsOf_omittable_iff, Json.fieldsOf_nil_iff]
    rintro ⟨_, _, text, ⟨_, _, given, rfl, rfl⟩ | rfl, rfl⟩
    · obtain ⟨name, rfl⟩ := Canonical.text_iff.mp text
      obtain ⟨argument, rfl⟩ := DirectiveArgument.covered _ given
      exact ⟨⟨name, some argument⟩, rfl⟩
    · obtain ⟨name, rfl⟩ := Canonical.text_iff.mp text
      exact ⟨⟨name, none⟩, rfl⟩
  · rintro ⟨directive, rfl⟩
    exact Directive.fieldsOf_members directive

theorem Directive.ofMembers?_members (directive : Directive) :
    ofMembers? directive.members = some directive := by
  obtain ⟨name, _ | argument⟩ := directive
  · rfl
  · simp [members, ofMembers?, DirectiveArgument.readBack]

theorem Directive.written (directive : Directive) :
    Canonical Part.form Part.directive.shape directive.toJson :=
  Part.canonical_iff.mpr (.record (Directive.fieldsOf_members directive))

theorem Directive.readBack (directive : Directive) :
    Directive.ofJson? directive.toJson = some directive :=
  Directive.ofMembers?_members directive

theorem Directive.covered (doc : Json) (canonical : Canonical Part.form Part.directive.shape doc) :
    ∃ directive : Directive, directive.toJson = doc := by
  rw [Part.canonical_iff] at canonical
  simp only [Part.form, Json.formOf_record_iff, Directive.fieldsOf_iff] at canonical
  obtain ⟨_, ⟨directive, rfl⟩, rfl⟩ := canonical
  exact ⟨directive, rfl⟩

/-! ## Methods and indexes -/

theorem MethodAttribute.written (part : MethodAttribute) :
    Canonical Part.form Part.methodAttribute.shape part.toJson := by
  refine Part.canonical_iff.mpr ?_
  match part with
  | .directive part => exact .tagged (.head _) (Directive.fieldsOf_members part)
  | .parameter part =>
      exact .tagged (.tail _ (.head _)) (.cons (Canonical.text_iff.mpr ⟨part.name, rfl⟩)
        (.cons (DataType.written part.type)
          (.cons (Canonical.flag_iff.mpr ⟨part.required, rfl⟩) .none)))
  | .returnValue part =>
      exact .tagged (.tail _ (.tail _ (.head _)))
        (.cons (Canonical.text_iff.mpr ⟨part.name, rfl⟩)
          (.cons (DataType.written part.type) .none))
  | .unknown => exact .unknown

theorem MethodAttribute.readBack (part : MethodAttribute) :
    MethodAttribute.ofJson? part.toJson = some part := by
  cases part with
  | directive part => simp [toJson, ofJson?, tagged, Directive.ofMembers?_members]
  | parameter part | returnValue part =>
      simp [toJson, ofJson?, tagged, DataType.readBack]
  | unknown => rfl

theorem MethodAttribute.covered (doc : Json)
    (canonical : Canonical Part.form Part.methodAttribute.shape doc) :
    ∃ part : MethodAttribute, part.toJson = doc := by
  rw [Part.canonical_iff] at canonical
  simp only [Part.form, Part.text, Part.slot, Part.optionalFlag, Json.formOf_tagged_iff,
    List.exists_mem_cons_iff, Directive.fieldsOf_iff, Json.fieldsOf_required_iff,
    Json.fieldsOf_defaulted_iff, Json.fieldsOf_nil_iff, List.not_mem_nil, false_and,
    exists_false, or_false, Option.mem_some_iff, exists_eq_left'] at canonical
  rcases canonical with (⟨_, ⟨part, rfl⟩, rfl⟩ |
    ⟨_, ⟨_, _, text, ⟨_, _, inner, ⟨_, _, flag, rfl, rfl⟩, rfl⟩, rfl⟩, rfl⟩ |
    ⟨_, ⟨_, _, text, ⟨_, _, inner, rfl, rfl⟩, rfl⟩, rfl⟩) | rfl
  · exact ⟨.directive part, rfl⟩
  · obtain ⟨name, rfl⟩ := Canonical.text_iff.mp text
    obtain ⟨type, rfl⟩ := DataType.covered _ inner
    obtain ⟨required, rfl⟩ := Canonical.flag_iff.mp flag
    exact ⟨.parameter ⟨name, type, required⟩, rfl⟩
  · obtain ⟨name, rfl⟩ := Canonical.text_iff.mp text
    obtain ⟨type, rfl⟩ := DataType.covered _ inner
    exact ⟨.returnValue ⟨name, type⟩, rfl⟩
  · exact ⟨.unknown, rfl⟩

theorem IndexField.written (field : IndexField) :
    Canonical Part.form Part.indexField.shape field.toJson :=
  Part.canonical_iff.mpr (.record (.cons (sortOrder_canonical_iff.mpr ⟨field.direction, rfl⟩)
    (.cons (Canonical.texts field.fieldPath) .none)))

theorem IndexField.readBack (field : IndexField) :
    IndexField.ofJson? field.toJson = some field := by
  simp [toJson, ofJson?, SortOrder.ofWord?_word, Json.list?_text?_ofList_string]

theorem IndexField.covered (doc : Json)
    (canonical : Canonical Part.form Part.indexField.shape doc) :
    ∃ field : IndexField, field.toJson = doc := by
  rw [Part.canonical_iff] at canonical
  simp only [Part.form, Part.slot, Part.path, Json.formOf_record_iff,
    Json.fieldsOf_required_iff, Json.fieldsOf_nil_iff] at canonical
  obtain ⟨_, ⟨_, _, word, ⟨_, _, texts, rfl, rfl⟩, rfl⟩, rfl⟩ := canonical
  obtain ⟨direction, rfl⟩ := sortOrder_canonical_iff.mp word
  obtain ⟨path, rfl⟩ := texts.exists_texts
  exact ⟨⟨direction, path⟩, rfl⟩

/-! ## Collections -/

theorem Attribute.written (part : Attribute) :
    Canonical Part.form Part.attribute.shape part.toJson := by
  refine Part.canonical_iff.mpr ?_
  match part with
  | .property part =>
      exact .tagged (.head _) (.cons (Canonical.text_iff.mpr ⟨part.name, rfl⟩)
        (.cons (DataType.written part.type)
          (.cons (.ofList fun value _ => Directive.written value)
            (.cons (Canonical.flag_iff.mpr ⟨part.required, rfl⟩) .none))))
  | .method part =>
      exact .tagged (.tail _ (.head _)) (.cons (Canonical.text_iff.mpr ⟨part.name, rfl⟩)
        (.cons (.ofList fun value _ => MethodAttribute.written value)
          (.cons (Canonical.text_iff.mpr ⟨part.code, rfl⟩) .none)))
  | .directive part =>
      exact .tagged (.tail _ (.tail _ (.head _))) (Directive.fieldsOf_members part)
  | .index part =>
      exact .tagged (.tail _ (.tail _ (.tail _ (.head _))))
        (.cons (.ofList fun value _ => IndexField.written value) .none)
  | .unknown => exact .unknown

theorem Attribute.readBack (part : Attribute) : Attribute.ofJson? part.toJson = some part := by
  cases part with
  | property part =>
      simp [toJson, ofJson?, tagged, DataType.readBack, Json.list?_ofList Directive.readBack]
  | method part => simp [toJson, ofJson?, tagged, Json.list?_ofList MethodAttribute.readBack]
  | directive part => simp [toJson, ofJson?, tagged, Directive.ofMembers?_members]
  | index part => simp [toJson, ofJson?, tagged, Json.list?_ofList IndexField.readBack]
  | unknown => rfl

theorem Attribute.covered (doc : Json) (canonical : Canonical Part.form Part.attribute.shape doc) :
    ∃ part : Attribute, part.toJson = doc := by
  rw [Part.canonical_iff] at canonical
  simp only [Part.form, Part.text, Part.slot, Part.optionalText, Part.optionalFlag,
    Part.optionalList, Json.formOf_tagged_iff, List.exists_mem_cons_iff, Directive.fieldsOf_iff,
    Json.fieldsOf_required_iff, Json.fieldsOf_defaulted_iff, Json.fieldsOf_nil_iff,
    List.not_mem_nil, false_and, exists_false, or_false, Option.mem_some_iff,
    exists_eq_left'] at canonical
  rcases canonical with (
    ⟨_, ⟨_, _, text, ⟨_, _, inner, ⟨_, _, list, ⟨_, _, flag, rfl, rfl⟩, rfl⟩, rfl⟩, rfl⟩, rfl⟩ |
    ⟨_, ⟨_, _, text, ⟨_, _, list, ⟨_, _, body, rfl, rfl⟩, rfl⟩, rfl⟩, rfl⟩ |
    ⟨_, ⟨part, rfl⟩, rfl⟩ | ⟨_, ⟨_, _, list, rfl, rfl⟩, rfl⟩) | rfl
  · obtain ⟨name, rfl⟩ := Canonical.text_iff.mp text
    obtain ⟨type, rfl⟩ := DataType.covered _ inner
    obtain ⟨directives, rfl⟩ := list.exists_ofList Directive.covered
    obtain ⟨required, rfl⟩ := Canonical.flag_iff.mp flag
    exact ⟨.property ⟨name, type, directives, required⟩, rfl⟩
  · obtain ⟨name, rfl⟩ := Canonical.text_iff.mp text
    obtain ⟨attributes, rfl⟩ := list.exists_ofList MethodAttribute.covered
    obtain ⟨code, rfl⟩ := Canonical.text_iff.mp body
    exact ⟨.method ⟨name, attributes, code⟩, rfl⟩
  · exact ⟨.directive part, rfl⟩
  · obtain ⟨fields, rfl⟩ := list.exists_ofList IndexField.covered
    exact ⟨.index ⟨fields⟩, rfl⟩
  · exact ⟨.unknown, rfl⟩

theorem Node.written (node : Node) : Canonical Part.form Part.node.shape node.toJson := by
  refine Part.canonical_iff.mpr ?_
  cases node with
  | collection described =>
      exact .tagged (.head _) (.cons (Part.namespace_canonical_iff.mpr ⟨described.space, rfl⟩)
        (.cons (Canonical.text_iff.mpr ⟨described.name, rfl⟩)
          (.cons (.ofList fun value _ => Attribute.written value) .none)))
  | unknown => exact .unknown

theorem Node.readBack (node : Node) : Node.ofJson? node.toJson = some node := by
  cases node with
  | collection described =>
      simp [toJson, ofJson?, tagged, Part.namespaceJson, Json.list?_ofList Attribute.readBack]
  | unknown => rfl

theorem Node.covered (doc : Json) (canonical : Canonical Part.form Part.node.shape doc) :
    ∃ node : Node, node.toJson = doc := by
  rw [Part.canonical_iff] at canonical
  simp only [Part.form, Part.optionalText, Part.optionalList, Json.formOf_tagged_iff,
    List.exists_mem_cons_iff, Json.fieldsOf_defaulted_iff, Json.fieldsOf_nil_iff,
    List.not_mem_nil, false_and, exists_false, or_false, Option.mem_some_iff,
    exists_eq_left'] at canonical
  rcases canonical with
    ⟨_, ⟨_, _, place, ⟨_, _, text, ⟨_, _, list, rfl, rfl⟩, rfl⟩, rfl⟩, rfl⟩ | rfl
  · obtain ⟨space, rfl⟩ := Part.namespace_canonical_iff.mp place
    obtain ⟨name, rfl⟩ := Canonical.text_iff.mp text
    obtain ⟨attributes, rfl⟩ := list.exists_ofList Attribute.covered
    exact ⟨.collection ⟨space, name, attributes⟩, rfl⟩
  · exact ⟨.unknown, rfl⟩

end CollectionSchema.Metadata
