import CollectionSchema.Json.Conform
import Mathlib.Data.List.Forall2

/-!
# What an accepted reading means

The document that a reading stands for is described without regard to the order in
which faults are found (`Means`).  A field of a record is looked up by its name or by
its place.  A field that is missing has its default, and a field that may be left out
is left out when it is null, too.  A kind without a name of its own is the fallback,
and it has no fields.

Whatever is shown of readings that are accepted is shown of this description, and not
of the checks.
-/

set_option autoImplicit false

namespace CollectionSchema.Json

variable {Name : Type}

/-! ## The fields that a reading gives -/

/-- The value of a member of an object by its name. -/
def Reading.member? (name : String) : List (Reading × Reading) → Option Reading
  | [] => none
  | (.string key, value) :: rest => if key = name then some value else member? name rest
  | _ :: rest => member? name rest

/-- The fields of a record, each with the member that has its name, if there is one. -/
def byName (slots : List (Slot Name)) (members : List (Reading × Reading)) :
    List (Slot Name × Option Reading) :=
  slots.map fun slot => (slot, Reading.member? slot.name members)

/-- The fields of a record, each with the item that stands in its place, if there is one. -/
def byPlace : List (Slot Name) → List Reading → List (Slot Name × Option Reading)
  | [], _ => []
  | slot :: slots, [] => (slot, none) :: byPlace slots []
  | slot :: slots, item :: items => (slot, some item) :: byPlace slots items

/-- What a reading gives for the fields of a record. -/
inductive Gives (slots : List (Slot Name)) : Reading → List (Slot Name × Option Reading) → Prop
  | members {members : List (Reading × Reading)} :
      Gives slots (.object members .closed) (byName slots members)
  | items {items : List Reading} (few : items.length ≤ slots.length) :
      Gives slots (.array items .closed) (byPlace slots items)

/-- The kind that a tagged record gives, and what holds its fields: all of its members, or the items
behind the kind. -/
inductive Tagged : Reading → Reading → Reading → Prop
  | member {members : List (Reading × Reading)} {tag : Reading}
      (given : Reading.member? "kind" members = some tag) :
      Tagged (.object members .closed) tag (.object members .closed)
  | item {tag : Reading} {items : List Reading} :
      Tagged (.array (tag :: items) .closed) tag (.array items .closed)

/-- That a reading names one of the kinds that are listed. -/
inductive Names (variants : List (Kind Name)) : Reading → Kind Name → Prop
  | word {kind : Kind Name} (listed : kind ∈ variants) : Names variants (.string kind.1) kind
  | number {index : Nat} {kind : Kind Name} (listed : variants[index]? = some kind) :
      Names variants (.integer index) kind

/-- That a reading stands for a kind: it names one, or it names none and there is a fallback. -/
inductive StandsFor (variants : List (Kind Name)) : Option String → Reading → Kind Name → Prop
  | listed {fallback : Option String} {tag : Reading} {kind : Kind Name}
      (names : Names variants tag kind) : StandsFor variants fallback tag kind
  | fallback {name : String} {tag : Reading} (strange : ∀ kind, ¬ Names variants tag kind) :
      StandsFor variants (some name) tag (name, [])

/-! ## What a reading means -/

/-- That a document is what a reading means as a shape. -/
abbrev Meaning (Name : Type) := Shape Name → Reading → Json → Prop

section Parts

variable (part : Meaning Name)

/-- The members that are written for a field, by what a reading gives for it. -/
inductive SlotMeans : Slot Name → Option Reading → List (String × Json) → Prop
  | given {slot : Slot Name} {value : Reading} {doc : Json} (means : part slot.shape value doc) :
      SlotMeans slot (some value) [(slot.name, doc)]
  | null {name : String} {shape : Shape Name} {value : Option Reading}
      (absent : ∀ given ∈ value, given = .null) :
      SlotMeans ⟨name, shape, .nullable⟩ value [(name, .null)]
  | leftOut {name : String} {shape : Shape Name} {value : Option Reading}
      (absent : ∀ given ∈ value, given = .null) : SlotMeans ⟨name, shape, .omittable⟩ value []
  | stand {name : String} {shape : Shape Name} {stand : Json} :
      SlotMeans ⟨name, shape, .defaulted stand⟩ none [(name, stand)]

/-- The members that are written for the fields of a record. -/
inductive FieldsMean : List (Slot Name × Option Reading) → List (String × Json) → Prop
  | none : FieldsMean [] []
  | more {slot : Slot Name} {value : Option Reading} {fields : List (Slot Name × Option Reading)}
      {written members : List (String × Json)} (first : SlotMeans part slot value written)
      (others : FieldsMean fields members) :
      FieldsMean ((slot, value) :: fields) (written ++ members)

/-- The items that are written for those of a tuple. -/
inductive TupleMeans : List (Shape Name) → List Reading → List Json → Prop
  | none : TupleMeans [] [] []
  | more {shape : Shape Name} {shapes : List (Shape Name)} {item : Reading} {items : List Reading}
      {doc : Json} {docs : List Json} (first : part shape item doc)
      (others : TupleMeans shapes items docs) :
      TupleMeans (shape :: shapes) (item :: items) (doc :: docs)

end Parts

section Inside

variable (inside : Option (Meaning Name))

/-- What a reading means as a form, when it is known what may lie inside it, if anything may. -/
inductive FormMeans : Form Name → Reading → Json → Prop
  | record {part : Meaning Name} {slots : List (Slot Name)} {reading : Reading}
      {fields : List (Slot Name × Option Reading)} {members : List (String × Json)}
      (enters : part ∈ inside) (gives : Gives slots reading fields)
      (means : FieldsMean part fields members) :
      FormMeans (.record slots) reading (.object members)
  | stamped {part : Meaning Name} {field stamp : String} {slots : List (Slot Name)}
      {reading : Reading} {fields : List (Slot Name × Option Reading)}
      {members : List (String × Json)} (enters : part ∈ inside) (gives : Gives slots reading fields)
      (means : FieldsMean part fields members)
      (stands : members.lookup field = some (.string stamp)) :
      FormMeans (.stamped field stamp slots) reading (.object members)
  | word {variants : List (String × Option (Shape Name))} {name : String}
      (listed : (name, none) ∈ variants) :
      FormMeans (.choice variants) (.string name) (.string name)
  | unit {part : Meaning Name} {variants : List (String × Option (Shape Name))} {name : String}
      {value : Reading} {closing : Closing} (enters : part ∈ inside)
      (listed : (name, none) ∈ variants) (empty : value = .null ∨ value = .object [] .closed) :
      FormMeans (.choice variants) (.object [(.string name, value)] closing) (.string name)
  | variant {part : Meaning Name} {variants : List (String × Option (Shape Name))} {name : String}
      {shape : Shape Name} {value : Reading} {closing : Closing} {doc : Json}
      (enters : part ∈ inside) (listed : (name, some shape) ∈ variants)
      (means : part shape value doc) :
      FormMeans (.choice variants) (.object [(.string name, value)] closing) (.single name doc)
  | tuple {part : Meaning Name} {shapes : List (Shape Name)} {items : List Reading}
      {docs : List Json} (enters : part ∈ inside) (means : TupleMeans part shapes items docs) :
      FormMeans (.tuple shapes) (.array items .closed) (.array docs)
  | tagged {part : Meaning Name} {variants : List (Kind Name)} {fallback : Option String}
      {kind : Kind Name} {reading tag rest : Reading}
      {fields : List (Slot Name × Option Reading)} {members : List (String × Json)}
      (enters : part ∈ inside) (separates : Tagged reading tag rest)
      (stands : StandsFor variants fallback tag kind) (gives : Gives kind.2 rest fields)
      (means : FieldsMean part fields members) :
      FormMeans (.tagged variants fallback) reading (taggedObject kind members)

/-- What a reading means as a shape, when it is known what may lie inside it, if anything may. -/
inductive ShapeMeans (table : Name → Form Name) : Meaning Name
  | text (content : String) : ShapeMeans table .text (.string content) (.string content)
  | flag (truth : Bool) : ShapeMeans table .flag (.bool truth) (.bool truth)
  | natural {value : Int} (positive : 0 ≤ value) :
      ShapeMeans table .natural (.integer value) (.integer value)
  | integer {value : Int} (fits : Text.fitsInteger64 value = true) :
      ShapeMeans table .integer (.integer value) (.integer value)
  | list {part : Meaning Name} {shape : Shape Name} {items : List Reading} {docs : List Json}
      (enters : part ∈ inside) (means : List.Forall₂ (part shape) items docs) :
      ShapeMeans table (.list shape) (.array items .closed) (.array docs)
  | named {name : Name} {reading : Reading} {doc : Json}
      (means : FormMeans inside (table name) reading doc) :
      ShapeMeans table (.named name) reading doc

end Inside

/-- What a reading means as a shape, with at most a number of arrays and objects inside each
other. -/
def Means (table : Name → Form Name) : Nat → Meaning Name
  | 0 => ShapeMeans none table
  | depth + 1 => ShapeMeans (some (Means table depth)) table

/-! ## Null is no meaning -/

theorem FormMeans.ne_null {inside : Option (Meaning Name)} {form : Form Name} {reading : Reading}
    {doc : Json} (means : FormMeans inside form reading doc) : doc ≠ .null := by
  rintro rfl
  cases means

theorem ShapeMeans.ne_null {inside : Option (Meaning Name)} {table : Name → Form Name}
    {shape : Shape Name} {reading : Reading} {doc : Json}
    (means : ShapeMeans inside table shape reading doc) : doc ≠ .null := by
  rintro rfl
  cases means with
  | named means => exact means.ne_null rfl

theorem Means.ne_null {table : Name → Form Name} :
    ∀ {limit : Nat} {shape : Shape Name} {reading : Reading} {doc : Json},
      Means table limit shape reading doc → doc ≠ .null
  | 0, _, _, _, means => ShapeMeans.ne_null means
  | _ + 1, _, _, _, means => ShapeMeans.ne_null means

end CollectionSchema.Json
