import CollectionSchema.Proofs.Json.Canonicity
import CollectionSchema.Proofs.Json.Inversion
import CollectionSchema.Proofs.Json.Layout

/-!
# From values to texts and back

A type is represented by a shape when its values and the canonical documents of the
shape correspond to each other.  Then a value is read back from either of its texts
as long as its document is not too deep, and a text that is accepted gives a value
whose own texts are accepted, too.
-/

set_option autoImplicit false

namespace CollectionSchema.Json

variable {Name : Type} {table : Name → Form Name}

/-! ## Canonical documents are read as they are written -/

theorem plainItems_of_forall {items : List Json} (each : ∀ item ∈ items, item.Plain) :
    PlainItems items := by
  induction items with
  | nil => trivial
  | cons item rest ih =>
      exact ⟨each item List.mem_cons_self, ih fun next member =>
        each next (List.mem_cons_of_mem _ member)⟩

theorem FieldsOf.plain {slots : List (Slot Name)} {members : List (String × Json)}
    (fields : FieldsOf (fun _ value => value.Plain) slots members) : PlainMembers members := by
  induction fields with
  | none => trivial
  | written stands _ ih =>
      cases stands with
      | filled fits => exact ⟨fits, ih⟩
      | null => exact ⟨trivial, ih⟩
  | omitted _ _ ih => exact ih

theorem plainItems_of_forall₂ {shapes : List (Shape Name)} {items : List Json}
    (fit : List.Forall₂ (fun _ item => item.Plain) shapes items) : PlainItems items := by
  induction fit with
  | nil => trivial
  | cons fits _ ih => exact ⟨fits, ih⟩

theorem FormOf.plain {form : Form Name} {doc : Json}
    (stands : FormOf (fun _ value => value.Plain) form doc) : doc.Plain := by
  cases stands with
  | record fields | stamped fields _ => exact fields.plain
  | unit => trivial
  | variant _ fits => exact ⟨fits, trivial⟩
  | tuple fit => exact plainItems_of_forall₂ fit
  | tagged _ fields => exact ⟨trivial, fields.plain⟩
  | unknown => exact ⟨trivial, trivial⟩

/-- A canonical document has no numbers but integers in range. -/
theorem Canonical.plain {shape : Shape Name} {doc : Json} (canonical : Canonical table shape doc) :
    doc.Plain := by
  refine Canonical.induct (motive := fun _ doc => doc.Plain) (fun shape doc parts => ?_) canonical
  have stands : ShapeOf (fun _ value => value.Plain) table shape doc :=
    parts.imp fun _ _ _ both => both.2
  cases stands with
  | text | flag => trivial
  | natural positive small => exact ⟨by omega, small⟩
  | integer fits =>
      simp only [Text.fitsInteger64, Bool.and_eq_true, decide_eq_true_eq] at fits
      constructor <;> omega
  | list fit => exact plainItems_of_forall fit
  | named form => exact form.plain

/-- The text of a canonical document is decoded to the document, unless it is too deep. -/
theorem decode_style (distinct : ∀ name, (table name).Distinct) {shape : Shape Name} {doc : Json}
    (canonical : Canonical table shape doc) {style : Json → String} (member : style ∈ styles) :
    decode table shape (style doc) = within maxDepth doc.depth doc := by
  rw [decode, ofText_of_mem_styles canonical.plain member]
  change (conform table maxDepth .streamed shape (Reading.ofJson doc) >>= _) = _
  rw [conform_ofJson distinct maxDepth .streamed canonical]
  exact within_map rfl

/-- What a text is decoded to is what it means. -/
theorem means_of_decode (distinct : ∀ name, (table name).Distinct) {shape : Shape Name}
    {text : String} {doc : Json} (done : decode table shape text = .ok doc) :
    Means table maxDepth shape (Reading.ofText text.toList).1 doc := by
  obtain ⟨value, checked, rest⟩ := ok_of_bind done
  split at rest
  · cases rest
    exact means_of_conform distinct checked
  · cases rest

/-- A text is decoded to a canonical document that is not too deep. -/
theorem canonical_of_decode {needs : Name → Nat} (distinct : ∀ name, (table name).Distinct)
    (sized : ∀ name, (table name).FitsIn table needs (needs name - 1)) {shape : Shape Name}
    (fits : shape.FitsIn needs maxDepth) {text : String} {doc : Json}
    (done : decode table shape text = .ok doc) :
    Canonical table shape doc ∧ doc.depth ≤ maxDepth :=
  Means.canonical sized maxDepth shape _ doc (inRange_ofText text.toList) fits
    (means_of_decode distinct done)

/-! ## Words -/

section Words

variable {α : Type} {all : List α} {word : α → String}

/-- The canonical documents of a choice between words. -/
theorem canonical_words_iff {name : Name}
    (form : table name = .choice (all.map fun value => unitVariant (word value)))
    (complete : ∀ value, value ∈ all) {doc : Json} :
    Canonical table (.named name) doc ↔ ∃ value, .string (word value) = doc := by
  rw [Canonical.named_iff, form, formOf_choice_iff]
  constructor
  · rintro ⟨_, listed, stands⟩
    obtain ⟨value, _, rfl⟩ := List.mem_map.mp listed
    exact ⟨value, stands.symm⟩
  · rintro ⟨value, rfl⟩
    exact ⟨_, List.mem_map_of_mem (complete value), rfl⟩

end Words

/-! ## Values of a type -/

/-- A value of a type from a text: the canonical document of the text, taken apart. -/
def decodeAs {α : Type} (table : Name → Form Name) (shape : Shape Name) (read : Json → Option α)
    (text : String) : Except Failure α := do
  match read (← decode table shape text) with
  | some value => return value
  | none => mismatch .wrongType

/-- That the values of a type and the canonical documents of a shape correspond to each other. -/
structure Represents {α : Type} (table : Name → Form Name) (shape : Shape Name) (fits : α → Prop)
    (write : α → Json) (read : Json → Option α) : Prop where
  written : ∀ value, fits value → Canonical table shape (write value)
  readBack : ∀ value, read (write value) = some value
  covered : ∀ doc, Canonical table shape doc → ∃ value, fits value ∧ write value = doc

/-- The canonical documents of a shape that are less deep than a limit. -/
def CanonicalBelow (table : Name → Form Name) (limit : Nat) (shape : Shape Name) (doc : Json) :
    Prop :=
  doc.depth < limit ∧ Canonical table shape doc

/-- The parts of a canonical document are less deep than the whole. -/
theorem Canonical.formOf_below {limit : Nat} {name : Name} {doc : Json}
    (canonical : Canonical table (.named name) doc) (le : doc.depth ≤ limit) :
    FormOf (CanonicalBelow table limit) (table name) doc :=
  (Canonical.named_iff.mp canonical).imp fun _ _ less fits => ⟨Nat.lt_of_lt_of_le less le, fits⟩

/-- That the canonical documents of a shape that are less deep than a limit are written for
values. -/
def CoveredBelow {α : Type} (table : Name → Form Name) (shape : Shape Name) (fits : α → Prop)
    (write : α → Json) (limit : Nat) : Prop :=
  ∀ doc : Json, doc.depth < limit → Canonical table shape doc →
    ∃ value, fits value ∧ write value = doc

/-- That values survive being written as a text and read again. -/
structure RoundTrips {α : Type} (fits : α → Prop) (write : α → Json)
    (decode : String → Except Failure α) : Prop where
  /-- Either text of a value gives the value, unless it is too deep and is refused as a text. -/
  written : ∀ value, fits value → ∀ style ∈ styles,
    decode (style (write value)) =
      if (write value).depth ≤ maxDepth then .ok value else .error .malformed
  /-- The value of any text that is accepted gives texts that are accepted for the same value and
  that are written again as they are. -/
  accepted : ∀ text value, decode text = .ok value → ∀ style ∈ styles,
    decode (style (write value)) = .ok value ∧
      (decode (style (write value))).map (fun again => style (write again)) =
        .ok (style (write value))

/-! ### Fields and lists -/

/-- A field that is there, in front of the others. -/
theorem FieldsOf.cons {part : Shape Name → Json → Prop} {name : String} {shape : Shape Name}
    {presence : Presence} {slots : List (Slot Name)} {value : Json}
    {members : List (String × Json)} (fits : part shape value)
    (others : FieldsOf part slots members) :
    FieldsOf part (⟨name, shape, presence⟩ :: slots) ((name, value) :: members) :=
  .written (.filled fits) others

section Values

variable {α : Type} {shape : Shape Name} {fits : α → Prop} {write : α → Json}
  {read : Json → Option α}

/-- A list of values is written as a canonical document when all of them are. -/
theorem Canonical.ofList {values : List α}
    (each : ∀ value ∈ values, Canonical table shape (write value)) :
    Canonical table (.list shape) (Json.ofList write values) := by
  refine Canonical.list_iff.mpr ⟨_, fun item member => ?_, rfl⟩
  obtain ⟨value, inside, rfl⟩ := List.mem_map.mp member
  exact each value inside

theorem Canonical.texts (texts : List String) :
    Canonical table (.list .text) (Json.ofList .string texts) :=
  .ofList fun content _ => .intro (.text content)

theorem list?_ofList (readBack : ∀ value, read (write value) = some value) (values : List α) :
    list? read (ofList write values) = some values := by
  change (values.map write).mapM read = some values
  induction values with
  | nil => rfl
  | cons value rest ih =>
      rw [List.map_cons, List.mapM_cons, readBack value, ih]
      rfl

theorem list?_text?_ofList_string (texts : List String) :
    list? text? (ofList .string texts) = some texts :=
  @list?_ofList _ .string text? (fun _ => rfl) texts

theorem exists_map_of_covered {each : Json → Prop}
    (covered : ∀ doc, each doc → ∃ value, fits value ∧ write value = doc) {items : List Json}
    (all : ∀ item ∈ items, each item) :
    ∃ values : List α, (∀ value ∈ values, fits value) ∧ values.map write = items := by
  induction items with
  | nil => exact ⟨[], fun _ none => (List.not_mem_nil none).elim, rfl⟩
  | cons item rest ih =>
      obtain ⟨value, fitting, rfl⟩ := covered item (all item List.mem_cons_self)
      obtain ⟨values, others, rfl⟩ := ih fun next member => all next (List.mem_cons_of_mem _ member)
      exact ⟨value :: values, List.forall_mem_cons.mpr ⟨fitting, others⟩, rfl⟩

/-- A canonical list is written for values that fit, when its items are. -/
theorem Canonical.exists_ofList_fitting
    (covered : ∀ doc, Canonical table shape doc → ∃ value, fits value ∧ write value = doc)
    {doc : Json} (canonical : Canonical table (.list shape) doc) :
    ∃ values : List α, (∀ value ∈ values, fits value) ∧ Json.ofList write values = doc := by
  obtain ⟨items, all, rfl⟩ := Canonical.list_iff.mp canonical
  obtain ⟨values, fitting, rfl⟩ := exists_map_of_covered covered all
  exact ⟨values, fitting, rfl⟩

theorem Canonical.exists_ofList
    (covered : ∀ doc, Canonical table shape doc → ∃ value, write value = doc)
    {doc : Json} (canonical : Canonical table (.list shape) doc) :
    ∃ values : List α, Json.ofList write values = doc := by
  have fitting : ∀ doc, Canonical table shape doc → ∃ value, True ∧ write value = doc :=
    fun doc item => (covered doc item).imp fun _ same => ⟨trivial, same⟩
  obtain ⟨values, -, same⟩ := exists_ofList_fitting fitting canonical
  exact ⟨values, same⟩

theorem Canonical.exists_texts {doc : Json} (canonical : Canonical table (.list .text) doc) :
    ∃ texts : List String, Json.ofList .string texts = doc :=
  canonical.exists_ofList fun _ text => (Canonical.text_iff.mp text).imp fun _ same => same.symm

theorem coveredBelow_zero : CoveredBelow table shape fits write 0 :=
  fun _ none => (Nat.not_lt_zero _ none).elim

/-- A list that is no deeper than a limit is written for values, when its items are. -/
theorem CoveredBelow.list {limit : Nat} (covered : CoveredBelow table shape fits write limit)
    {items : List Json} (less : (Json.array items).depth ≤ limit)
    (each : ∀ item ∈ items, Canonical table shape item) :
    ∃ values : List α, (∀ value ∈ values, fits value) ∧ values.map write = items := by
  have shallow : ∀ item ∈ items, item.depth < limit ∧ Canonical table shape item :=
    fun item member => ⟨Nat.lt_of_le_of_lt (depth_le_depthOfItems member) less, each item member⟩
  exact exists_map_of_covered (fun doc both => covered doc both.1 both.2) shallow

/-- A value is decoded from either of its texts, unless it is too deep. -/
theorem Represents.decodeAs_style (represents : Represents table shape fits write read)
    (distinct : ∀ name, (table name).Distinct) {value : α} (fitting : fits value)
    {style : Json → String} (member : style ∈ styles) :
    decodeAs table shape read (style (write value)) =
      within maxDepth (write value).depth value := by
  rw [decodeAs, decode_style distinct (represents.written value fitting) member]
  refine within_map ?_
  rw [represents.readBack value]
  rfl

/-- The value of a text that is accepted is written as the canonical document of the text. -/
theorem Represents.of_decodeAs (represents : Represents table shape fits write read)
    {needs : Name → Nat} (distinct : ∀ name, (table name).Distinct)
    (sized : ∀ name, (table name).FitsIn table needs (needs name - 1))
    (roomy : shape.FitsIn needs maxDepth) {text : String} {value : α}
    (done : decodeAs table shape read text = .ok value) :
    fits value ∧ decode table shape text = .ok (write value) ∧
      (write value).depth ≤ maxDepth := by
  obtain ⟨doc, decoded, rest⟩ := ok_of_bind done
  obtain ⟨canonical, less⟩ := canonical_of_decode distinct sized roomy decoded
  obtain ⟨found, fitting, rfl⟩ := represents.covered doc canonical
  rw [represents.readBack found] at rest
  cases rest
  exact ⟨fitting, decoded, less⟩

theorem Represents.roundTrips (represents : Represents table shape fits write read)
    {needs : Name → Nat} (distinct : ∀ name, (table name).Distinct)
    (sized : ∀ name, (table name).FitsIn table needs (needs name - 1))
    (roomy : shape.FitsIn needs maxDepth) :
    RoundTrips fits write (decodeAs table shape read) where
  written value fitting style member := represents.decodeAs_style distinct fitting member
  accepted text value done style member := by
    obtain ⟨fitting, _, less⟩ := represents.of_decodeAs distinct sized roomy done
    have again : decodeAs table shape read (style (write value)) = .ok value := by
      rw [represents.decodeAs_style distinct fitting member, within_of_le less]
    exact ⟨again, by rw [again]; rfl⟩

end Values

end CollectionSchema.Json
