import CollectionSchema.Proofs.Json.Canonical
import CollectionSchema.Proofs.Json.Meaning
import CollectionSchema.Proofs.Json.Range

/-!
# What a check gives is canonical

A reading that is accepted gives a canonical document, and this document is no
deeper than the reading was allowed to be.  The latter is not plain, since a field
that is missing may have a default with a depth of its own.  So each name of a table
states how deep its documents must at least be allowed to be, and the defaults of its
fields have to keep below.  A name that can occur at any depth must then do without
defaults that add to it.
-/

set_option autoImplicit false

namespace CollectionSchema.Json

variable {Name : Type}

/-! ## Room for defaults -/

/-- Whether a shape may stand where only a number of arrays and objects may lie inside each other,
by the number that each name needs. -/
def Shape.FitsIn (needs : Name → Nat) : Nat → Shape Name → Prop
  | limit, .list item => item.FitsIn needs (limit - 1)
  | limit, .named name => needs name ≤ limit
  | _, _ => True

/-- Whether a field may stand at a depth: it is not too deep itself, and its default is a canonical
document that is not too deep. -/
structure Slot.FitsIn (table : Name → Form Name) (needs : Name → Nat) (limit : Nat)
    (slot : Slot Name) : Prop where
  shape : slot.shape.FitsIn needs limit
  stand : ∀ value, slot.presence = .defaulted value →
    Canonical table slot.shape value ∧ value.depth ≤ limit

/-- Whether the parts of a form may stand at a depth. -/
def Form.FitsIn (table : Name → Form Name) (needs : Name → Nat) (limit : Nat) : Form Name → Prop
  | .record slots | .stamped _ _ slots => ∀ slot ∈ slots, slot.FitsIn table needs limit
  | .choice variants => ∀ variant ∈ variants, ∀ shape ∈ variant.2, shape.FitsIn needs limit
  | .tuple shapes => ∀ shape ∈ shapes, shape.FitsIn needs limit
  | .tagged variants _ => ∀ kind ∈ variants, ∀ slot ∈ kind.2, slot.FitsIn table needs limit

/-- Where no name needs room, every shape may stand everywhere. -/
theorem Shape.fitsIn_zero (shape : Shape Name) (limit : Nat) :
    shape.FitsIn (fun _ => 0) limit := by
  induction shape generalizing limit with
  | text | flag | natural | integer => trivial
  | list item ih => exact ih (limit - 1)
  | named name => exact Nat.zero_le limit

section Monotone

variable {table : Name → Form Name} {needs : Name → Nat}

theorem Shape.FitsIn.mono {shape : Shape Name} {limit more : Nat} (less : limit ≤ more)
    (fits : shape.FitsIn needs limit) : shape.FitsIn needs more := by
  induction shape generalizing limit more with
  | text | flag | natural | integer => trivial
  | list item ih => exact @ih (limit - 1) (more - 1) (by omega) fits
  | named name => exact Nat.le_trans fits less

theorem Slot.FitsIn.mono {slot : Slot Name} {limit more : Nat} (less : limit ≤ more)
    (fits : slot.FitsIn table needs limit) : slot.FitsIn table needs more :=
  ⟨fits.shape.mono less, fun value same =>
    ⟨(fits.stand value same).1, Nat.le_trans (fits.stand value same).2 less⟩⟩

theorem Form.FitsIn.mono {form : Form Name} {limit more : Nat} (less : limit ≤ more)
    (fits : form.FitsIn table needs limit) : form.FitsIn table needs more := by
  cases form with
  | record slots | stamped field stamp slots =>
      exact fun slot member => (fits slot member).mono less
  | choice variants =>
      exact fun variant listed shape same => (fits variant listed shape same).mono less
  | tuple shapes => exact fun shape member => (fits shape member).mono less
  | tagged variants fallback =>
      exact fun kind listed slot member => (fits kind listed slot member).mono less

end Monotone

/-! ## Fields -/

/-- That the documents of a meaning are canonical and no deeper than a limit. -/
def Sound (table : Name → Form Name) (needs : Name → Nat) (limit : Nat) (part : Meaning Name) :
    Prop :=
  ∀ shape reading doc, Reading.InRange reading → shape.FitsIn needs limit →
    part shape reading doc → Canonical table shape doc ∧ doc.depth ≤ limit

/-- The members of a record that is not too deep. -/
structure RecordOf (table : Name → Form Name) (limit : Nat) (slots : List (Slot Name))
    (members : List (String × Json)) : Prop where
  fields : FieldsOf (Canonical table) slots members
  depth : depthOfMembers members ≤ limit

/-- Whether all integers in what is given for some fields are in range. -/
def GivenInRange (fields : List (Slot Name × Option Reading)) : Prop :=
  ∀ field ∈ fields, ∀ given ∈ field.2, given.InRange

theorem inRange_of_member? {name : String} :
    ∀ {members : List (Reading × Reading)}, Reading.MembersInRange members →
      ∀ given ∈ Reading.member? name members, given.InRange
  | [], _, _, found => (nomatch found)
  | (key, value) :: members, range, given, found => by
      unfold Reading.member? at found
      split at found
      · cases found
      · rename_i same
        split at found
        · cases same
          cases found
          exact range.1
        · cases same
          exact inRange_of_member? range.2 given found
      · rename_i same
        cases same
        exact inRange_of_member? range.2 given found

theorem inRange_byPlace : ∀ {slots : List (Slot Name)} {items : List Reading},
    Reading.ItemsInRange items → GivenInRange (byPlace slots items)
  | [], _, _ => fun _ none => (List.not_mem_nil none).elim
  | _ :: _, [], range =>
      List.forall_mem_cons.mpr ⟨fun _ none => (nomatch none), inRange_byPlace range⟩
  | _ :: _, _ :: _, range =>
      List.forall_mem_cons.mpr ⟨fun _ same => Option.some.inj same ▸ range.1,
        inRange_byPlace range.2⟩

theorem Gives.inRange {slots : List (Slot Name)} {reading : Reading}
    {fields : List (Slot Name × Option Reading)} (gives : Gives slots reading fields)
    (range : reading.InRange) : GivenInRange fields := by
  cases gives with
  | members => exact List.forall_mem_map.mpr fun slot _ => inRange_of_member? range
  | items few => exact inRange_byPlace range

theorem map_fst_byPlace : ∀ (slots : List (Slot Name)) (items : List Reading),
    (byPlace slots items).map Prod.fst = slots
  | [], _ => rfl
  | slot :: slots, [] => congrArg (slot :: ·) (map_fst_byPlace slots [])
  | slot :: slots, _ :: items => congrArg (slot :: ·) (map_fst_byPlace slots items)

theorem Gives.map_fst {slots : List (Slot Name)} {reading : Reading}
    {fields : List (Slot Name × Option Reading)} (gives : Gives slots reading fields) :
    fields.map Prod.fst = slots := by
  cases gives with
  | members => exact List.map_map.trans (List.map_id slots)
  | items few => exact map_fst_byPlace slots _

section Parts

variable {table : Name → Form Name} {needs : Name → Nat} {limit : Nat} {part : Meaning Name}
  (sound : Sound table needs limit part)

theorem RecordOf.written {slot : Slot Name} {slots : List (Slot Name)}
    {members : List (String × Json)} (others : RecordOf table limit slots members) {value : Json}
    (stands : SlotOf (Canonical table) slot value) (less : value.depth ≤ limit) :
    RecordOf table limit (slot :: slots) ((slot.name, value) :: members) :=
  ⟨.written stands others.fields, Nat.max_le.mpr ⟨less, others.depth⟩⟩

include sound

/-- What is written for the fields of a record makes a canonical record. -/
theorem FieldsMean.recordOf {fields : List (Slot Name × Option Reading)}
    {members : List (String × Json)} (means : FieldsMean part fields members)
    (range : GivenInRange fields)
    (fit : ∀ slot ∈ fields.map Prod.fst, slot.FitsIn table needs limit) :
    RecordOf table limit (fields.map Prod.fst) members := by
  induction means with
  | none => exact ⟨.none, Nat.zero_le _⟩
  | more first _ ih =>
      rw [List.map_cons] at fit ⊢
      obtain ⟨fits, fit⟩ := List.forall_mem_cons.mp fit
      obtain ⟨inside, range⟩ := List.forall_mem_cons.mp range
      have others := ih range fit
      cases first with
      | given means =>
          obtain ⟨canonical, less⟩ := sound _ _ _ (inside _ rfl) fits.shape means
          exact others.written (.filled canonical) less
      | null => exact others.written .null (Nat.zero_le _)
      | leftOut => exact ⟨.omitted rfl others.fields, others.depth⟩
      | stand =>
          obtain ⟨canonical, less⟩ := fits.stand _ rfl
          exact others.written (.filled canonical) less

theorem recordOf_of_gives {slots : List (Slot Name)} {reading : Reading}
    {fields : List (Slot Name × Option Reading)} {members : List (String × Json)}
    (gives : Gives slots reading fields) (means : FieldsMean part fields members)
    (range : reading.InRange) (fit : ∀ slot ∈ slots, slot.FitsIn table needs limit) :
    RecordOf table limit slots members := by
  have made := means.recordOf sound (gives.inRange range)
  rw [gives.map_fst] at made
  exact made fit

theorem TupleMeans.canonical {shapes : List (Shape Name)} {items : List Reading} {docs : List Json}
    (means : TupleMeans part shapes items docs) (range : Reading.ItemsInRange items)
    (fit : ∀ shape ∈ shapes, shape.FitsIn needs limit) :
    List.Forall₂ (Canonical table) shapes docs ∧ depthOfItems docs ≤ limit := by
  induction means with
  | none => exact ⟨.nil, Nat.zero_le _⟩
  | more first _ ih =>
      obtain ⟨fits, fit⟩ := List.forall_mem_cons.mp fit
      obtain ⟨canonical, less⟩ := sound _ _ _ range.1 fits first
      obtain ⟨behind, lessBehind⟩ := ih range.2 fit
      exact ⟨.cons canonical behind, Nat.max_le.mpr ⟨less, lessBehind⟩⟩

theorem canonical_of_forall₂ {shape : Shape Name} (fits : shape.FitsIn needs limit)
    {items : List Reading} {docs : List Json} (means : List.Forall₂ (part shape) items docs)
    (range : Reading.ItemsInRange items) :
    (∀ doc ∈ docs, Canonical table shape doc) ∧ depthOfItems docs ≤ limit := by
  induction means with
  | nil => exact ⟨fun _ none => (List.not_mem_nil none).elim, Nat.zero_le _⟩
  | cons first _ ih =>
      obtain ⟨canonical, less⟩ := sound _ _ _ range.1 fits first
      obtain ⟨behind, lessBehind⟩ := ih range.2
      exact ⟨List.forall_mem_cons.mpr ⟨canonical, behind⟩, Nat.max_le.mpr ⟨less, lessBehind⟩⟩

end Parts

/-! ## Forms and shapes -/

theorem Tagged.inRange {reading tag rest : Reading} (separates : Tagged reading tag rest)
    (range : reading.InRange) : rest.InRange := by
  cases separates with
  | member given => exact range
  | item => exact range.2

/-- A kind that a reading stands for is listed, or it is the fallback and has no fields. -/
theorem StandsFor.cases {variants : List (Kind Name)} {fallback : Option String} {tag : Reading}
    {kind : Kind Name} (stands : StandsFor variants fallback tag kind) :
    kind ∈ variants ∨ ∃ name ∈ fallback, kind = (name, []) := by
  cases stands with
  | listed names =>
      cases names with
      | word listed => exact .inl listed
      | number listed => exact .inl (List.mem_of_getElem? listed)
  | fallback strange => exact .inr ⟨_, rfl, rfl⟩

section Shapes

variable {table : Name → Form Name} {needs : Name → Nat} {limit : Nat}
  {inside : Option (Meaning Name)}
  (sounds : ∀ part ∈ inside, ∃ less, limit = less + 1 ∧ Sound table needs less part)

include sounds

/-- What a reading means as a form is canonical and not too deep. -/
theorem FormMeans.canonical {form : Form Name} {reading : Reading} {doc : Json}
    (means : FormMeans inside form reading doc) (range : reading.InRange)
    (fit : form.FitsIn table needs (limit - 1)) :
    FormOf (Canonical table) form doc ∧ doc.depth ≤ limit := by
  cases means with
  | record enters gives means =>
      obtain ⟨limit, rfl, sound⟩ := sounds _ enters
      obtain ⟨fields, less⟩ := recordOf_of_gives sound gives means range fit
      exact ⟨.record fields, Nat.succ_le_succ less⟩
  | stamped enters gives means stands =>
      obtain ⟨limit, rfl, sound⟩ := sounds _ enters
      obtain ⟨fields, less⟩ := recordOf_of_gives sound gives means range fit
      exact ⟨.stamped fields stands, Nat.succ_le_succ less⟩
  | word listed => exact ⟨.unit listed, Nat.zero_le _⟩
  | unit enters listed empty => exact ⟨.unit listed, Nat.zero_le _⟩
  | variant enters listed means =>
      obtain ⟨limit, rfl, sound⟩ := sounds _ enters
      obtain ⟨canonical, less⟩ := sound _ _ _ range.1 (fit _ listed _ rfl) means
      refine ⟨.variant listed canonical, ?_⟩
      simpa [Json.single, depth, depthOfMembers] using less
  | tuple enters means =>
      obtain ⟨limit, rfl, sound⟩ := sounds _ enters
      obtain ⟨fitting, less⟩ := means.canonical sound range fit
      exact ⟨.tuple fitting, Nat.succ_le_succ less⟩
  | tagged enters separates stands gives means =>
      obtain ⟨limit, rfl, sound⟩ := sounds _ enters
      have inside : ∀ {kind : Kind Name} {members : List (String × Json)},
          depthOfMembers members ≤ limit → (taggedObject kind members).depth ≤ limit + 1 := by
        intro kind members less
        simpa [taggedObject, depth, depthOfMembers] using less
      rcases stands.cases with listed | ⟨name, same, rfl⟩
      · obtain ⟨fields, less⟩ :=
          recordOf_of_gives sound gives means (separates.inRange range) (fit _ listed)
        exact ⟨.tagged listed fields, inside less⟩
      · obtain ⟨⟨⟩, less⟩ := recordOf_of_gives sound gives means (separates.inRange range)
          fun _ none => (List.not_mem_nil none).elim
        cases same
        exact ⟨.unknown, inside less⟩

theorem ShapeMeans.canonical (sized : ∀ name, (table name).FitsIn table needs (needs name - 1))
    {shape : Shape Name} {reading : Reading} {doc : Json}
    (means : ShapeMeans inside table shape reading doc) (range : reading.InRange)
    (fits : shape.FitsIn needs limit) : Canonical table shape doc ∧ doc.depth ≤ limit := by
  cases means with
  | text content => exact ⟨.intro (.text content), Nat.zero_le _⟩
  | flag truth => exact ⟨.intro (.flag truth), Nat.zero_le _⟩
  | natural positive => exact ⟨.intro (.natural positive range.2), Nat.zero_le _⟩
  | integer small => exact ⟨.intro (.integer small), Nat.zero_le _⟩
  | list enters means =>
      obtain ⟨limit, rfl, sound⟩ := sounds _ enters
      obtain ⟨fitting, less⟩ := canonical_of_forall₂ sound fits means range
      exact ⟨.intro (.list fitting), Nat.succ_le_succ less⟩
  | named means =>
      obtain ⟨form, less⟩ :=
        means.canonical sounds range ((sized _).mono (Nat.sub_le_sub_right fits 1))
      exact ⟨.intro (.named form), less⟩

end Shapes

/-- What a reading means is canonical, and not deeper than it is allowed to be. -/
theorem Means.canonical {table : Name → Form Name} {needs : Name → Nat}
    (sized : ∀ name, (table name).FitsIn table needs (needs name - 1)) (limit : Nat) :
    Sound table needs limit (Means table limit) := by
  induction limit with
  | zero =>
      exact fun _ _ _ range fits means =>
        ShapeMeans.canonical (fun _ none => by cases none) sized means range fits
  | succ limit sound =>
      refine fun _ _ _ range fits means =>
        ShapeMeans.canonical (fun part same => ?_) sized means range fits
      cases same
      exact ⟨limit, rfl, sound⟩

end CollectionSchema.Json
