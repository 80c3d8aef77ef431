import CollectionSchema.Proofs.Json.Members
import Mathlib.Logic.Relation

/-!
# Edits that keep the meaning of a document

What may change in a document depends on what is known of the place where it changes.
The members of any object may change their order.  An object that stands for a record
may get members that belong to no field of it.  When a kind is not known and there is a
fallback for it, all other members may be replaced.  And what nothing looks at may
become anything.

An edit is one such change somewhere in a document, or none at all.
-/

set_option autoImplicit false

namespace CollectionSchema.Json

variable {Name : Type}

/-! ## Places -/

/-- What is known of the place of a value. -/
inductive Place (Name : Type) where
  /-- A value of a shape is wanted. -/
  | shaped (shape : Shape Name)
  /-- A kind stands here, or the content of a variant that has none. -/
  | plain
  /-- Nothing looks at the value. -/
  | ignored

namespace Place

theorem shaped_ne_ignored (shape : Shape Name) : shaped shape ≠ ignored := by
  intro same
  cases same

theorem plain_ne_ignored : (plain : Place Name) ≠ ignored := by
  intro same
  cases same

end Place

/-- The fields that belong to a kind.  A kind that is not known has none. -/
def kindFields (variants : List (Kind Name)) : Json → List (Slot Name)
  | .string word => (variants.lookup word).getD []
  | .integer index => if 0 ≤ index then (variants[index.toNat]?.map Prod.snd).getD [] else []
  | _ => []

namespace Form

/-- The fields of the record that an object stands for, unless it stands for no record. -/
def fields? (members : List (String × Json)) : Form Name → Option (List (Slot Name))
  | .record slots => some slots
  | .stamped _ _ slots => some slots
  | .tagged variants _ => (named "kind" members).head?.map (kindFields variants)
  | .choice _ => none
  | .tuple _ => none

/-- The place of the field with a name. -/
def fieldPlace (slots : List (Slot Name)) (name : String) : Place Name :=
  match slots.find? fun slot => slot.name == name with
  | some slot => .shaped slot.shape
  | none => .ignored

/-- The place of a member of an object. -/
def member (members : List (String × Json)) (key : String) : Form Name → Place Name
  | .record slots => fieldPlace slots key
  | .stamped _ _ slots => fieldPlace slots key
  | .tagged variants fallback =>
    if key = "kind" then .plain
    else fieldPlace (((Form.tagged variants fallback).fields? members).getD []) key
  | .choice variants =>
    match variants.lookup key with
    | some (some shape) => .shaped shape
    | _ => .plain
  | .tuple _ => .plain

/-- The place of an item among those for some fields. -/
def itemPlace (slots : List (Slot Name)) (index : Nat) : Place Name :=
  match slots[index]? with
  | some slot => .shaped slot.shape
  | none => .plain

/-- The place of an item of an array. -/
def item (items : List Json) : Form Name → Nat → Place Name
  | .record slots, index => itemPlace slots index
  | .stamped _ _ slots, index => itemPlace slots index
  | .tuple shapes, index =>
    match shapes[index]? with
    | some shape => .shaped shape
    | none => .plain
  | .tagged variants _, index =>
    match items, index with
    | tag :: _, index + 1 => itemPlace (kindFields variants tag) index
    | _, _ => .plain
  | .choice _, _ => .plain

end Form

namespace Place

/-- The place of a member of an object that stands at a place. -/
def member (table : Name → Form Name) (members : List (String × Json)) (key : String) :
    Place Name → Place Name
  | .shaped (.named name) => (table name).member members key
  | .shaped _ => .plain
  | .plain => .plain
  | .ignored => .ignored

/-- The place of an item of an array that stands at a place. -/
def item (table : Name → Form Name) (items : List Json) : Place Name → Nat → Place Name
  | .shaped (.list shape), _ => .shaped shape
  | .shaped (.named name), index => (table name).item items index
  | .shaped _, _ => .plain
  | .plain, _ => .plain
  | .ignored, _ => .ignored

end Place

/-! ## Edits -/

/-- A change of a value at a place. -/
inductive Edit (table : Name → Form Name) : Place Name → Json → Json → Prop
  | same {place : Place Name} {doc : Json} : Edit table place doc doc
  | ignored {doc changed : Json} : Edit table .ignored doc changed
  /-- The members of any object may come in another order. -/
  | permute {place : Place Name} {members changed : List (String × Json)}
      (order : members.Perm changed) : Edit table place (.object members) (.object changed)
  /-- A record may get members that are neither its kind nor one of its fields. -/
  | add {name : Name} {members more : List (String × Json)} {slots : List (Slot Name)}
      (record : (table name).fields? members = some slots)
      (strange : ∀ member ∈ more, member.1 ≠ "kind" ∧ member.1 ∉ slots.map Slot.name) :
      Edit table (.shaped (.named name)) (.object members) (.object (members ++ more))
  /-- Where an unknown kind is allowed, everything behind it may be exchanged. -/
  | replace {name : Name} {variants : List (Kind Name)} {fallback word : String}
      {members changed : List (String × Json)}
      (form : table name = .tagged variants (some fallback))
      (unknown : word ∉ variants.map Prod.fst) (before : ∀ member ∈ members, member.1 ≠ "kind")
      (after : ∀ member ∈ changed, member.1 ≠ "kind") :
      Edit table (.shaped (.named name)) (.object (("kind", .string word) :: members))
        (.object (("kind", .string word) :: changed))
  /-- An item of an array is edited in its place. -/
  | item {place : Place Name} {front back : List Json} {value changed : Json}
      (inner : Edit table (place.item table (front ++ value :: back) front.length) value changed) :
      Edit table place (.array (front ++ value :: back)) (.array (front ++ changed :: back))
  /-- A member of an object is edited in its place. -/
  | member {place : Place Name} {front back : List (String × Json)} {key : String}
      {value changed : Json}
      (inner : Edit table (place.member table (front ++ (key, value) :: back) key) value changed) :
      Edit table place (.object (front ++ (key, value) :: back))
        (.object (front ++ (key, changed) :: back))

/-- Any number of edits, one after the other. -/
def Edits (table : Name → Form Name) (place : Place Name) : Json → Json → Prop :=
  Relation.ReflTransGen (Edit table place)

/-- That the items of an array are edited in their own places. -/
def ItemsEdited (table : Name → Form Name) : (Nat → Place Name) → List Json → List Json → Prop
  | _, [], [] => True
  | place, value :: items, next :: changed =>
    Edit table (place 0) value next ∧
      ItemsEdited table (fun index => place (index + 1)) items changed
  | _, _, _ => False

/-- That a value has neither items nor members. -/
def IsLeaf : Json → Prop
  | .array _ => False
  | .object _ => False
  | _ => True

namespace Edit

variable {table : Name → Form Name}

/-- Where something is looked at, a value without parts stays as it is. -/
theorem eq_of_isLeaf {place : Place Name} {doc changed : Json} (edit : Edit table place doc changed)
    (known : place ≠ .ignored) (leaf : doc.IsLeaf) : changed = doc := by
  cases edit with
  | same => rfl
  | ignored => exact absurd rfl known
  | permute | add | replace | item | member => exact leaf.elim

theorem eq_of_empty {members : List (String × Json)} {changed : Json}
    (edit : Edit table .plain (.object members) changed) (empty : members = []) :
    changed = .object members := by
  cases edit with
  | same => rfl
  | permute order =>
      subst empty
      rw [order.nil_eq]
  | member => simp at empty

/-- Only null becomes null. -/
theorem ne_null {shape : Shape Name} {doc changed : Json}
    (edit : Edit table (.shaped shape) doc changed) (filled : doc ≠ .null) : changed ≠ .null := by
  cases edit with
  | same => exact filled
  | permute | add | replace | item | member => exact fun same => by cases same

theorem exists_object {place : Place Name} {members : List (String × Json)} {changed : Json}
    (edit : Edit table place (.object members) changed) (known : place ≠ .ignored) :
    ∃ others, changed = .object others := by
  cases edit with
  | same => exact ⟨_, rfl⟩
  | ignored => exact absurd rfl known
  | permute | add | replace | member => exact ⟨_, rfl⟩

/-- Where an object stands for a record, each of its fields is edited in its own place, and so is
its kind. -/
theorem named {name : Name} {members changed : List (String × Json)}
    (edit : Edit table (.shaped (.named name)) (.object members) (.object changed))
    {slots : List (Slot Name)} (record : (table name).fields? members = some slots) {key : String}
    (known : key = "kind" ∨ key ∈ slots.map Slot.name)
    (single : (Json.named key members).length ≤ 1) :
    List.Forall₂ (Edit table ((table name).member members key)) (Json.named key members)
      (Json.named key changed) := by
  cases edit with
  | same => exact List.forall₂_same.mpr fun _ _ => .same
  | permute order =>
      rw [← named_eq_of_perm order single]
      exact List.forall₂_same.mpr fun _ _ => .same
  | @add _ _ more _ again strange =>
      cases record.symm.trans again
      have none : Json.named key more = [] := by
        refine named_eq_nil.mpr fun member inside same => ?_
        rcases known with rfl | listed
        · exact (strange member inside).1 same
        · exact (strange member inside).2 (same ▸ listed)
      rw [named_append, none, List.append_nil]
      exact List.forall₂_same.mpr fun _ _ => .same
  | @replace _ variants _ word _ _ form unknown before after =>
      have absent : variants.lookup word = none := by
        rw [List.lookup_eq_none_iff]
        intro kind listed
        exact bne_iff_ne.mpr fun same => unknown (same ▸ List.mem_map_of_mem listed)
      rw [form, Form.fields?, named_cons_self, List.head?_cons, Option.map_some, kindFields,
        absent] at record
      cases record
      rcases known with rfl | listed
      · rw [named_cons_self, named_cons_self, named_eq_nil.mpr before, named_eq_nil.mpr after]
        exact .cons .same .nil
      · cases listed
  | @member _ front back other value changed inner =>
      by_cases same : other = key
      · subst same
        rw [named_append, named_cons_self, List.length_append, List.length_cons] at single
        have noFront : Json.named other front = [] := List.eq_nil_of_length_eq_zero (by omega)
        have noBack : Json.named other back = [] := List.eq_nil_of_length_eq_zero (by omega)
        rw [named_append, named_append, named_cons_self, named_cons_self, noFront, noBack]
        exact .cons inner .nil
      · rw [named_append, named_append, named_cons_of_ne same, named_cons_of_ne same]
        exact List.forall₂_same.mpr fun _ _ => .same

/-- An object that stands for a choice keeps its only member in its place. -/
theorem single {name : Name} {variants : List (String × Option (Shape Name))}
    (form : table name = .choice variants) {members : List (String × Json)} {changed : Json}
    (edit : Edit table (.shaped (.named name)) (.object members) changed) {key : String}
    {value : Json} (alone : members = [(key, value)]) :
    ∃ other, changed = .object [(key, other)] ∧
      Edit table ((table name).member members key) value other := by
  cases edit with
  | same =>
      subst alone
      exact ⟨value, rfl, .same⟩
  | permute order =>
      subst alone
      rw [List.perm_singleton.mp order.symm]
      exact ⟨value, rfl, .same⟩
  | add record =>
      rw [form] at record
      cases record
  | replace tagged =>
      rw [form] at tagged
      cases tagged
  | @member _ front back other old changed inner =>
      rcases front with _ | ⟨first, front⟩
      · obtain ⟨same, rfl⟩ := List.cons.inj alone
        cases same
        exact ⟨changed, rfl, inner⟩
      · have lengths := congrArg List.length alone
        simp at lengths

theorem itemsEdited_same : ∀ (place : Nat → Place Name) (items : List Json),
    ItemsEdited table place items items
  | _, [] => trivial
  | place, _ :: rest => ⟨.same, itemsEdited_same (fun index => place (index + 1)) rest⟩

theorem itemsEdited_of_item {value changed : Json} {back : List Json} :
    ∀ {place : Nat → Place Name} {front : List Json},
      Edit table (place front.length) value changed →
        ItemsEdited table place (front ++ value :: back) (front ++ changed :: back)
  | place, [], inner => ⟨inner, itemsEdited_same (fun index => place (index + 1)) back⟩
  | place, _ :: front, inner =>
    ⟨.same, @itemsEdited_of_item _ _ _ (fun index => place (index + 1)) front inner⟩

/-- An array stays an array, and its items are edited in their own places. -/
theorem exists_array {place : Place Name} {items : List Json} {changed : Json}
    (edit : Edit table place (.array items) changed) (known : place ≠ .ignored) :
    ∃ others, changed = .array others ∧
      ItemsEdited table (place.item table items) items others := by
  cases edit with
  | same => exact ⟨items, rfl, itemsEdited_same _ items⟩
  | ignored => exact absurd rfl known
  | item inner => exact ⟨_, rfl, itemsEdited_of_item inner⟩

end Edit

end CollectionSchema.Json
