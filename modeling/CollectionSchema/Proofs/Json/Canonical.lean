import CollectionSchema.Json.Conform
import Mathlib.Algebra.Group.Int.Defs
import Mathlib.Algebra.Group.Nat.Defs
import Mathlib.Data.List.Forall2

/-!
# Canonical documents

Each value of a type has one document that stands for it, and that document is
canonical: a record is an object with its fields in order, every field is written
unless it may be left out, and a kind stands first.  What is canonical is said once
for a shape whose parts may be any documents, and then taken as the least such
notion, so that a property of canonical documents is proved part by part.
-/

set_option autoImplicit false

namespace CollectionSchema.Json

variable {Name : Type}

/-! ## What stands for a shape -/

section Parts

variable (part : Shape Name → Json → Prop)

/-- The values that are written for a field, when it is known which documents it may be. -/
inductive SlotOf : Slot Name → Json → Prop
  | filled {name : String} {shape : Shape Name} {presence : Presence} {value : Json}
      (fits : part shape value) : SlotOf ⟨name, shape, presence⟩ value
  | null {name : String} {shape : Shape Name} : SlotOf ⟨name, shape, .nullable⟩ .null

/-- The members of a record, when it is known which documents its fields may be. -/
inductive FieldsOf : List (Slot Name) → List (String × Json) → Prop
  | none : FieldsOf [] []
  | written {slot : Slot Name} {slots : List (Slot Name)} {value : Json}
      {members : List (String × Json)} (stands : SlotOf part slot value)
      (others : FieldsOf slots members) :
      FieldsOf (slot :: slots) ((slot.name, value) :: members)
  | omitted {slot : Slot Name} {slots : List (Slot Name)} {members : List (String × Json)}
      (omittable : slot.presence = .omittable) (others : FieldsOf slots members) :
      FieldsOf (slot :: slots) members

/-- The documents of a form, when it is known which documents its parts may be. -/
inductive FormOf : Form Name → Json → Prop
  | record {slots : List (Slot Name)} {members : List (String × Json)}
      (fields : FieldsOf part slots members) : FormOf (.record slots) (.object members)
  | stamped {field stamp : String} {slots : List (Slot Name)} {members : List (String × Json)}
      (fields : FieldsOf part slots members)
      (stands : members.lookup field = some (.string stamp)) :
      FormOf (.stamped field stamp slots) (.object members)
  | unit {variants : List (String × Option (Shape Name))} {name : String}
      (listed : (name, none) ∈ variants) : FormOf (.choice variants) (.string name)
  | variant {variants : List (String × Option (Shape Name))} {name : String}
      {shape : Shape Name} {content : Json} (listed : (name, some shape) ∈ variants)
      (fits : part shape content) : FormOf (.choice variants) (.single name content)
  | tuple {shapes : List (Shape Name)} {items : List Json}
      (fit : List.Forall₂ part shapes items) : FormOf (.tuple shapes) (.array items)
  | tagged {variants : List (Kind Name)} {fallback : Option String} {kind : Kind Name}
      {members : List (String × Json)} (listed : kind ∈ variants)
      (fields : FieldsOf part kind.2 members) :
      FormOf (.tagged variants fallback) (taggedObject kind members)
  | unknown {variants : List (Kind Name)} {name : String} :
      FormOf (.tagged variants (some name)) (taggedObject (name, ([] : List (Slot Name))) [])

/-- The documents of a shape, when it is known which documents its parts may be. -/
inductive ShapeOf (table : Name → Form Name) : Shape Name → Json → Prop
  | text (content : String) : ShapeOf table .text (.string content)
  | flag (truth : Bool) : ShapeOf table .flag (.bool truth)
  | natural {value : Int} (positive : 0 ≤ value) (small : value < 2 ^ 64) :
      ShapeOf table .natural (.integer value)
  | integer {value : Int} (fits : Text.fitsInteger64 value = true) :
      ShapeOf table .integer (.integer value)
  | list {shape : Shape Name} {items : List Json} (fit : ∀ item ∈ items, part shape item) :
      ShapeOf table (.list shape) (.array items)
  | named {name : Name} {doc : Json} (form : FormOf part (table name) doc) :
      ShapeOf table (.named name) doc

end Parts

/-- The documents that stand for the values of a shape. -/
inductive Canonical (table : Name → Form Name) : Shape Name → Json → Prop
  | intro {shape : Shape Name} {doc : Json} (parts : ShapeOf (Canonical table) table shape doc) :
      Canonical table shape doc

/-! ## Parts are shallower than the whole -/

theorem depth_le_depthOfItems {items : List Json} {item : Json} (member : item ∈ items) :
    item.depth ≤ depthOfItems items := by
  induction items with
  | nil => cases member
  | cons first rest ih =>
      rcases List.mem_cons.mp member with rfl | inside
      · exact Nat.le_max_left _ _
      · exact Nat.le_trans (ih inside) (Nat.le_max_right _ _)

section Change

variable {part other : Shape Name → Json → Prop}

theorem FieldsOf.imp {slots : List (Slot Name)} {members : List (String × Json)}
    (fields : FieldsOf part slots members)
    (change : ∀ shape value, value.depth ≤ depthOfMembers members → part shape value →
      other shape value) : FieldsOf other slots members := by
  induction fields with
  | none => exact .none
  | written stands _ ih =>
      refine .written ?_
        (ih fun shape value less => change shape value (Nat.le_trans less (Nat.le_max_right _ _)))
      cases stands with
      | filled fits => exact .filled (change _ _ (Nat.le_max_left _ _) fits)
      | null => exact .null
  | omitted omittable _ ih => exact .omitted omittable (ih change)

theorem forall₂_imp_of_depth {shapes : List (Shape Name)} {items : List Json}
    (fit : List.Forall₂ part shapes items)
    (change : ∀ shape value, value.depth ≤ depthOfItems items → part shape value →
      other shape value) : List.Forall₂ other shapes items := by
  induction fit with
  | nil => exact .nil
  | cons fits _ ih =>
      exact .cons (change _ _ (Nat.le_max_left _ _) fits)
        (ih fun shape value less => change shape value (Nat.le_trans less (Nat.le_max_right _ _)))

theorem FormOf.imp {form : Form Name} {doc : Json} (stands : FormOf part form doc)
    (change : ∀ shape value, value.depth < doc.depth → part shape value → other shape value) :
    FormOf other form doc := by
  have inside : ∀ {limit : Nat}, doc.depth = limit + 1 → ∀ shape value, value.depth ≤ limit →
      part shape value → other shape value := fun same shape value less =>
    change shape value (by omega)
  cases stands with
  | record fields => exact .record (fields.imp (inside rfl))
  | stamped fields stands => exact .stamped (fields.imp (inside rfl)) stands
  | unit listed => exact .unit listed
  | variant listed fits => exact .variant listed (inside rfl _ _ (Nat.le_max_left _ _) fits)
  | tuple fit => exact .tuple (forall₂_imp_of_depth fit (inside rfl))
  | tagged listed fields =>
      exact .tagged listed (fields.imp fun shape value less =>
        inside rfl shape value (Nat.le_trans less (Nat.le_max_right _ _)))
  | unknown => exact .unknown

theorem ShapeOf.imp {table : Name → Form Name} {shape : Shape Name} {doc : Json}
    (stands : ShapeOf part table shape doc)
    (change : ∀ shape value, value.depth < doc.depth → part shape value → other shape value) :
    ShapeOf other table shape doc := by
  cases stands with
  | text content => exact .text content
  | flag truth => exact .flag truth
  | natural positive small => exact .natural positive small
  | integer fits => exact .integer fits
  | list fit =>
      exact .list fun item member =>
        change _ _ (Nat.lt_succ_of_le (depth_le_depthOfItems member)) (fit item member)
  | named form => exact .named (form.imp change)

/-- Null stands for no value; it is the absence of a field. -/
theorem FormOf.ne_null {form : Form Name} {doc : Json} (stands : FormOf part form doc) :
    doc ≠ .null := by
  rintro rfl
  cases stands

end Change

namespace Canonical

variable {table : Name → Form Name}

theorem parts {shape : Shape Name} {doc : Json} (canonical : Canonical table shape doc) :
    ShapeOf (Canonical table) table shape doc := by
  cases canonical with
  | intro parts => exact parts

/-- What holds of a canonical document when it holds of its parts holds of every canonical
document. -/
theorem induct {motive : Shape Name → Json → Prop}
    (step : ∀ shape doc,
      ShapeOf (fun shape doc => Canonical table shape doc ∧ motive shape doc) table shape doc →
        motive shape doc)
    {shape : Shape Name} {doc : Json} (canonical : Canonical table shape doc) :
    motive shape doc := by
  induction size : doc.depth using Nat.strongRecOn generalizing shape doc with
  | ind size shallower =>
      subst size
      exact step shape doc (canonical.parts.imp fun shape value less fits =>
        ⟨fits, shallower value.depth less fits rfl⟩)

theorem ne_null {shape : Shape Name} {doc : Json} (canonical : Canonical table shape doc) :
    doc ≠ .null := by
  rintro rfl
  cases canonical.parts with
  | named form => exact form.ne_null rfl

/-! ## Taking canonical documents apart -/

theorem text_iff {doc : Json} :
    Canonical table .text doc ↔ ∃ content, doc = .string content := by
  constructor
  · intro canonical
    cases canonical.parts with
    | text content => exact ⟨content, rfl⟩
  · rintro ⟨content, rfl⟩
    exact .intro (.text content)

theorem flag_iff {doc : Json} :
    Canonical table .flag doc ↔ ∃ truth, doc = .bool truth := by
  constructor
  · intro canonical
    cases canonical.parts with
    | flag truth => exact ⟨truth, rfl⟩
  · rintro ⟨truth, rfl⟩
    exact .intro (.flag truth)

theorem natural_iff {doc : Json} :
    Canonical table .natural doc ↔ ∃ number : Nat, number < 2 ^ 64 ∧ doc = .integer number := by
  constructor
  · intro canonical
    cases canonical.parts with
    | natural positive small =>
        obtain ⟨number, rfl⟩ := Int.eq_ofNat_of_zero_le positive
        exact ⟨number, Int.ofNat_lt.mp small, rfl⟩
  · rintro ⟨number, small, rfl⟩
    exact .intro (.natural (Int.natCast_nonneg number) (Int.ofNat_lt.mpr small))

theorem integer_iff {doc : Json} :
    Canonical table .integer doc ↔
      ∃ value : Int, Text.fitsInteger64 value = true ∧ doc = .integer value := by
  constructor
  · intro canonical
    cases canonical.parts with
    | integer fits => exact ⟨_, fits, rfl⟩
  · rintro ⟨value, fits, rfl⟩
    exact .intro (.integer fits)

theorem list_iff {shape : Shape Name} {doc : Json} :
    Canonical table (.list shape) doc ↔
      ∃ items, (∀ item ∈ items, Canonical table shape item) ∧ doc = .array items := by
  constructor
  · intro canonical
    cases canonical.parts with
    | list fit => exact ⟨_, fit, rfl⟩
  · rintro ⟨items, fit, rfl⟩
    exact .intro (.list fit)

theorem named_iff {name : Name} {doc : Json} :
    Canonical table (.named name) doc ↔ FormOf (Canonical table) (table name) doc := by
  constructor
  · intro canonical
    cases canonical.parts with
    | named form => exact form
  · intro form
    exact .intro (.named form)

end Canonical

section Apart

variable {part : Shape Name → Json → Prop}

theorem formOf_record_iff {slots : List (Slot Name)} {doc : Json} :
    FormOf part (.record slots) doc ↔
      ∃ members, FieldsOf part slots members ∧ doc = .object members := by
  constructor
  · rintro ⟨fields⟩
    exact ⟨_, fields, rfl⟩
  · rintro ⟨members, fields, rfl⟩
    exact .record fields

theorem formOf_stamped_iff {field stamp : String} {slots : List (Slot Name)} {doc : Json} :
    FormOf part (.stamped field stamp slots) doc ↔
      ∃ members, FieldsOf part slots members ∧ members.lookup field = some (.string stamp) ∧
        doc = .object members := by
  constructor
  · intro form
    cases form with
    | stamped fields stands => exact ⟨_, fields, stands, rfl⟩
  · rintro ⟨members, fields, stands, rfl⟩
    exact .stamped fields stands

/-- The documents of one variant of a choice. -/
def VariantOf (part : Shape Name → Json → Prop) (doc : Json) :
    String × Option (Shape Name) → Prop
  | (name, none) => doc = .string name
  | (name, some shape) => ∃ content, part shape content ∧ doc = .single name content

theorem formOf_choice_iff {variants : List (String × Option (Shape Name))} {doc : Json} :
    FormOf part (.choice variants) doc ↔ ∃ variant ∈ variants, VariantOf part doc variant := by
  constructor
  · intro form
    cases form with
    | unit listed => exact ⟨_, listed, rfl⟩
    | variant listed fits => exact ⟨_, listed, _, fits, rfl⟩
  · rintro ⟨⟨name, _ | shape⟩, listed, stands⟩
    · cases stands
      exact .unit listed
    · obtain ⟨content, fits, rfl⟩ := stands
      exact .variant listed fits

theorem formOf_tuple_iff {shapes : List (Shape Name)} {doc : Json} :
    FormOf part (.tuple shapes) doc ↔
      ∃ items, List.Forall₂ part shapes items ∧ doc = .array items := by
  constructor
  · intro form
    cases form with
    | tuple fit => exact ⟨_, fit, rfl⟩
  · rintro ⟨items, fit, rfl⟩
    exact .tuple fit

theorem formOf_tagged_iff {variants : List (Kind Name)} {fallback : Option String} {doc : Json} :
    FormOf part (.tagged variants fallback) doc ↔
      (∃ kind ∈ variants, ∃ members, FieldsOf part kind.2 members ∧
        doc = taggedObject kind members) ∨
        ∃ name ∈ fallback, doc = taggedObject (name, ([] : List (Slot Name))) [] := by
  constructor
  · intro form
    cases form with
    | tagged listed fields => exact .inl ⟨_, listed, _, fields, rfl⟩
    | unknown => exact .inr ⟨_, rfl, rfl⟩
  · rintro (⟨kind, listed, members, fields, rfl⟩ | ⟨name, rfl, rfl⟩)
    · exact .tagged listed fields
    · exact .unknown

theorem fieldsOf_nil_iff {members : List (String × Json)} :
    FieldsOf part [] members ↔ members = [] := by
  constructor
  · rintro ⟨⟩
    rfl
  · rintro rfl
    exact .none

/-- The members of a record by its first field. -/
theorem fieldsOf_cons_iff {slot : Slot Name} {slots : List (Slot Name)}
    {members : List (String × Json)} :
    FieldsOf part (slot :: slots) members ↔
      (∃ value others, (part slot.shape value ∨ slot.presence = .nullable ∧ value = .null) ∧
        FieldsOf part slots others ∧ members = (slot.name, value) :: others) ∨
        slot.presence = .omittable ∧ FieldsOf part slots members := by
  constructor
  · intro fields
    cases fields with
    | written stands others =>
        cases stands with
        | filled fits => exact .inl ⟨_, _, .inl fits, others, rfl⟩
        | null => exact .inl ⟨_, _, .inr ⟨rfl, rfl⟩, others, rfl⟩
    | omitted omittable others => exact .inr ⟨omittable, others⟩
  · obtain ⟨name, shape, presence⟩ := slot
    rintro (⟨value, others, fits | ⟨rfl, rfl⟩, fields, rfl⟩ | ⟨omittable, fields⟩)
    · exact .written (.filled fits) fields
    · exact .written .null fields
    · exact .omitted omittable fields

theorem fieldsOf_required_iff {name : String} {shape : Shape Name}
    {slots : List (Slot Name)} {members : List (String × Json)} :
    FieldsOf part (.required name shape :: slots) members ↔
      ∃ value others, part shape value ∧ FieldsOf part slots others ∧
        members = (name, value) :: others := by
  simp [fieldsOf_cons_iff, Slot.required]

theorem fieldsOf_nullable_iff {name : String} {shape : Shape Name}
    {slots : List (Slot Name)} {members : List (String × Json)} :
    FieldsOf part (⟨name, shape, .nullable⟩ :: slots) members ↔
      ∃ value others, (part shape value ∨ value = .null) ∧ FieldsOf part slots others ∧
        members = (name, value) :: others := by
  simp [fieldsOf_cons_iff]

theorem fieldsOf_defaulted_iff {name : String} {shape : Shape Name} {stand : Json}
    {slots : List (Slot Name)} {members : List (String × Json)} :
    FieldsOf part (⟨name, shape, .defaulted stand⟩ :: slots) members ↔
      ∃ value others, part shape value ∧ FieldsOf part slots others ∧
        members = (name, value) :: others := by
  simp [fieldsOf_cons_iff]

theorem fieldsOf_omittable_iff {name : String} {shape : Shape Name}
    {slots : List (Slot Name)} {members : List (String × Json)} :
    FieldsOf part (⟨name, shape, .omittable⟩ :: slots) members ↔
      (∃ value others, part shape value ∧ FieldsOf part slots others ∧
        members = (name, value) :: others) ∨ FieldsOf part slots members := by
  simp [fieldsOf_cons_iff]

end Apart

end CollectionSchema.Json
