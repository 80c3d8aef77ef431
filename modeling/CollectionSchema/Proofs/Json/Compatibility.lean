import CollectionSchema.Proofs.Json.Edit
import CollectionSchema.Proofs.Json.Layout

/-!
# Edited documents are accepted

When a document is accepted, so is every document that comes from it by edits, and it
gives the same.  Each check is gone through once: what it needs of a document is found
in the edited one, by the values under each name or by the places of the items.  A
document may be held to another limit than before, as long as it fits; so documents in
between may be deeper than the last one.
-/

set_option autoImplicit false

namespace CollectionSchema.Json

variable {Name : Type} {table : Name → Form Name}

/-! ## What lies inside -/

/-- That edited documents are accepted and give the same, unless they are too deep. -/
def Carries (table : Name → Form Name) (inside other : Inside Name) : Prop :=
  ∀ stage shape doc changed out, Edit table (.shaped shape) doc changed →
    changed.depth ≤ other.depth → inside.check stage shape (Reading.ofJson doc) = .ok out →
      other.check stage shape (Reading.ofJson changed) = .ok out

theorem ofJson_ne_null {doc : Json} (filled : doc ≠ .null) : Reading.ofJson doc ≠ .null := by
  cases doc with
  | null => exact absurd rfl filled
  | _ => simp [Reading.ofJson]

theorem checkSlot_of_ne_null (inside : Inside Name) (stage : Stage) (slot : Slot Name) {doc : Json}
    (filled : doc ≠ .null) :
    checkSlot inside stage slot (Reading.ofJson doc) =
      inside.check stage slot.shape (Reading.ofJson doc) := by
  unfold checkSlot
  split
  · exact absurd (by assumption) (ofJson_ne_null filled)
  · rfl

section Inside

variable {inside other : Inside Name} (carries : Carries table inside other) {stage : Stage}

include carries

theorem slotCarries {slot : Slot Name} {value changed : Json}
    (edit : Edit table (.shaped slot.shape) value changed) (fits : changed.depth ≤ other.depth) :
    SlotCarries inside other stage slot value changed := by
  intro doc checked
  by_cases null : value = .null
  · subst null
    obtain rfl := edit.eq_of_isLeaf (Place.shaped_ne_ignored _) trivial
    unfold checkSlot at checked ⊢
    split at checked
    · exact checked
    · exact carries _ _ _ _ _ edit fits checked
  · rw [checkSlot_of_ne_null other stage slot (edit.ne_null null)]
    rw [checkSlot_of_ne_null inside stage slot null] at checked
    exact carries _ _ _ _ _ edit fits checked

/-- A record that is written as an object is carried over when each field is edited in its place. -/
theorem recordOfMembers_edited {slots : List (Slot Name)} (distinct : (slots.map Slot.name).Nodup)
    {members changed : List (String × Json)}
    (edited : ∀ slot ∈ slots, (named slot.name members).length ≤ 1 →
      List.Forall₂ (Edit table (.shaped slot.shape)) (named slot.name members)
        (named slot.name changed))
    (fits : depthOfMembers changed ≤ other.depth) {out : List (String × Json)}
    (done : recordOfMembers inside stage slots (Reading.ofMembers members) .closed = .ok out) :
    recordOfMembers other stage slots (Reading.ofMembers changed) .closed = .ok out := by
  refine recordOfMembers_carried distinct (fun slot listed single => ?_) done
  have shallow : ∀ value ∈ named slot.name changed, value.depth ≤ other.depth := fun value member =>
    depthOfMembers_le.mp fits _ (mem_of_mem_named member)
  have both := List.forall₂_and_left _ _ |>.mpr ⟨shallow, (edited slot listed single).flip⟩
  exact both.flip.imp fun value next known => slotCarries carries known.2 known.1

omit carries in
theorem recordOfItems_nil (inside other : Inside Name) (stage : Stage) (slots : List (Slot Name)) :
    recordOfItems inside stage slots [] .closed = recordOfItems other stage slots [] .closed := by
  induction slots with
  | nil => rfl
  | cons slot rest ih => rw [recordOfItems, recordOfItems, ih]

/-- A record that is written as an array is carried over when each item is edited in its place. -/
theorem recordOfItems_edited : ∀ {slots : List (Slot Name)} {items changed : List Json}
    {out : List (String × Json)}, ItemsEdited table (Form.itemPlace slots) items changed →
      depthOfItems changed ≤ other.depth →
      recordOfItems inside stage slots (Reading.ofItems items) .closed = .ok out →
        recordOfItems other stage slots (Reading.ofItems changed) .closed = .ok out
  | slots, [], [], out, _, _, done => (recordOfItems_nil other inside stage slots).trans done
  | [], _ :: _, _ :: _, _, _, _, done => by cases stage <;> cases done
  | slot :: slots, value :: items, next :: changed, out, edited, fits, done => by
      rw [depthOfItems, Nat.max_le] at fits
      obtain ⟨doc, checked, behind⟩ := ok_of_bind done
      obtain ⟨members, others, made⟩ := ok_of_bind behind
      cases made
      have again := @slotCarries _ _ _ _ carries stage slot _ _ edited.1 fits.1 doc checked
      have later := @recordOfItems_edited slots _ _ _ edited.2 fits.2 others
      rw [Reading.ofItems, recordOfItems, again]
      change (recordOfItems other stage slots (Reading.ofItems changed) .closed >>= _) = _
      rw [later]
      rfl

theorem checkTuple_edited : ∀ {shapes : List (Shape Name)} {items changed : List Json}
    {out : List Json} {around : List Json},
      ItemsEdited table ((Form.tuple shapes).item around) items changed →
      depthOfItems changed ≤ other.depth →
      checkTuple inside stage shapes (Reading.ofItems items) .closed = .ok out →
        checkTuple other stage shapes (Reading.ofItems changed) .closed = .ok out
  | [], [], [], _, _, _, _, done => done
  | _ :: _, [], [], _, _, _, _, done => by cases done
  | [], _ :: _, _ :: _, _, _, _, _, done => by cases stage <;> cases done
  | shape :: shapes, value :: items, next :: changed, out, around, edited, fits, done => by
      rw [depthOfItems, Nat.max_le] at fits
      obtain ⟨doc, checked, behind⟩ := ok_of_bind done
      obtain ⟨docs, others, made⟩ := ok_of_bind behind
      cases made
      have again := carries _ shape _ _ _ edited.1 fits.1 checked
      have later := @checkTuple_edited shapes _ _ _ around edited.2 fits.2 others
      rw [Reading.ofItems, checkTuple, again]
      change (checkTuple other stage shapes (Reading.ofItems changed) .closed >>= _) = _
      rw [later]
      rfl

theorem checkItems_edited {shape : Shape Name} : ∀ {items changed : List Json} {out : List Json},
    ItemsEdited table (fun _ => .shaped shape) items changed →
      depthOfItems changed ≤ other.depth →
      checkItems inside stage shape (Reading.ofItems items) = .ok out →
        checkItems other stage shape (Reading.ofItems changed) = .ok out
  | [], [], _, _, _, done => done
  | value :: items, next :: changed, out, edited, fits, done => by
      rw [depthOfItems, Nat.max_le] at fits
      obtain ⟨doc, checked, behind⟩ := ok_of_bind done
      obtain ⟨docs, others, made⟩ := ok_of_bind behind
      cases made
      have again := carries _ shape _ _ _ edited.1 fits.1 checked
      have later := checkItems_edited edited.2 fits.2 others
      rw [Reading.ofItems, checkItems, again]
      change (checkItems other stage shape (Reading.ofItems changed) >>= _) = _
      rw [later]
      rfl

end Inside

/-! ## Forms -/

theorem exists_of_room {content : Option (Inside Name)} {depth : Nat}
    (fits : depth + 1 ≤ room content) : ∃ inner, content = some inner ∧ depth ≤ inner.depth := by
  cases content with
  | none => exact absurd fits (Nat.not_succ_le_zero depth)
  | some inner => exact ⟨inner, rfl, Nat.le_of_succ_le_succ fits⟩

theorem fieldPlace_of_mem {slots : List (Slot Name)} (distinct : (slots.map Slot.name).Nodup)
    {slot : Slot Name} (listed : slot ∈ slots) :
    Form.fieldPlace slots slot.name = .shaped slot.shape := by
  rw [Form.fieldPlace, find?_of_mem distinct listed]

/-- What a kind stands for has the fields that belong to it. -/
theorem kindFields_of_kindOf {stage : Stage} {variants : List (Kind Name)}
    (distinct : (variants.map Prod.fst).Nodup) {fallback : Option String} {tag : Json}
    {kind : Kind Name} (done : kindOf stage variants fallback (Reading.ofJson tag) = .ok kind) :
    kindFields variants tag = kind.2 := by
  have strange : ∀ {mismatched : Mismatch},
      unknownKind fallback mismatched = .ok kind → kind.2 = [] := by
    intro mismatched unknown
    cases fallback with
    | none => cases unknown
    | some name =>
        cases unknown
        rfl
  cases tag with
  | string name =>
      rw [Reading.ofJson, kindOf] at done
      rw [kindFields]
      split at done
      · rename_i found looked
        cases done
        have matched := List.find?_some looked
        have word : kind.1 = name := beq_iff_eq.mp matched
        rw [← word, lookup_of_mem distinct (List.mem_of_find?_eq_some looked)]
        rfl
      · rename_i absent
        have none : variants.lookup name = none := by
          rw [List.lookup_eq_none_iff]
          intro other listed
          exact bne_iff_ne.mpr fun same =>
            List.find?_eq_none.mp absent other listed (beq_iff_eq.mpr same.symm)
        rw [none, strange done]
        rfl
  | integer value =>
      rw [Reading.ofJson, kindOf] at done
      rw [kindFields]
      split at done
      · rename_i counts
        rw [if_pos counts.2]
        split at done
        · rename_i found looked
          cases done
          rw [looked]
          rfl
        · rename_i absent
          rw [absent, strange done]
          rfl
      · cases done
  | null | bool | decimal | array | object => cases done

section Forms

variable {inside other : Option (Inside Name)}
  (carries : ∀ first ∈ inside, ∀ second ∈ other, Carries table first second) {stage : Stage}

include carries

/-- A record is carried over, whether it is written as an object or as an array. -/
theorem checkRecord_edited {name : Name} {slots : List (Slot Name)}
    (record : table name = .record slots ∨ ∃ field stamp, table name = .stamped field stamp slots)
    (distinct : (slots.map Slot.name).Nodup) {doc changed : Json} {out : List (String × Json)}
    (edit : Edit table (.shaped (.named name)) doc changed) (fits : changed.depth ≤ room other)
    (done : checkRecord inside stage slots (Reading.ofJson doc) = .ok out) :
    checkRecord other stage slots (Reading.ofJson changed) = .ok out := by
  have fields : ∀ members, (table name).fields? members = some slots := by
    intro members
    rcases record with form | ⟨_, _, form⟩ <;> rw [form] <;> rfl
  have members : ∀ members key, (table name).member members key = Form.fieldPlace slots key := by
    intro members key
    rcases record with form | ⟨_, _, form⟩ <;> rw [form] <;> rfl
  have items : ∀ items index, Place.item table items (.shaped (.named name)) index =
      Form.itemPlace slots index := by
    intro items index
    rw [Place.item]
    rcases record with form | ⟨_, _, form⟩ <;> rw [form] <;> rfl
  cases doc with
  | object written =>
      obtain ⟨others, rfl⟩ := edit.exists_object (Place.shaped_ne_ignored _)
      obtain ⟨second, rfl, shallow⟩ := exists_of_room fits
      obtain ⟨first, entered, taken⟩ := ok_of_bind done
      refine recordOfMembers_edited (carries first (mem_of_enter entered) second rfl) distinct
        (fun slot listed single => ?_) shallow taken
      have each := edit.named (fields written) (.inr (List.mem_map_of_mem listed)) single
      rwa [members, fieldPlace_of_mem distinct listed] at each
  | array written =>
      obtain ⟨others, rfl, edited⟩ := edit.exists_array (Place.shaped_ne_ignored _)
      obtain ⟨second, rfl, shallow⟩ := exists_of_room fits
      obtain ⟨first, entered, taken⟩ := ok_of_bind done
      rw [funext (items written)] at edited
      exact recordOfItems_edited (carries first (mem_of_enter entered) second rfl) edited shallow
        taken
  | null | bool | integer | decimal | string => cases done

omit carries in
/-- A document that is accepted as a choice has a single member, which names the variant. -/
theorem exists_member_of_checkChoiceObject {first : Inside Name}
    {variants : List (String × Option (Shape Name))} {members : List (String × Json)} {out : Json}
    (done : checkChoiceObject first stage variants (Reading.ofMembers members) .closed = .ok out) :
    ∃ key value, members = [(key, value)] ∧
      checkVariant first stage variants (.string key) (Reading.ofJson value) = .ok out := by
  obtain ⟨_, _, alone, accepted⟩ := exists_of_checkChoiceObject done
  rcases members with _ | ⟨⟨key, value⟩, _ | ⟨_, _⟩⟩ <;> cases alone
  exact ⟨key, value, rfl, accepted⟩

omit carries in
/-- The content of a variant is carried over. -/
theorem checkVariant_edited {first second : Inside Name} (inner : Carries table first second)
    {variants : List (String × Option (Shape Name))} {members : List (String × Json)} {key : String}
    {value changed out : Json}
    (edit : Edit table ((Form.choice variants).member members key) value changed)
    (fits : changed.depth ≤ second.depth)
    (done : checkVariant first stage variants (.string key) (Reading.ofJson value) = .ok out) :
    checkVariant second stage variants (.string key) (Reading.ofJson changed) = .ok out := by
  obtain ⟨_, ⟨⟩, taken⟩ := ok_of_bind done
  obtain ⟨content, chosen, taken⟩ := ok_of_bind taken
  have looked : variants.lookup key = some content := by
    unfold variant at chosen
    split at chosen
    · rename_i found looked
      cases chosen
      exact looked
    · cases chosen
  rw [Form.member, looked] at edit
  change (variant variants key >>= _) = _
  rw [chosen]
  cases content with
  | none =>
      obtain ⟨_, empty, made⟩ := ok_of_bind taken
      have same : changed = value := by
        cases value with
        | null => exact edit.eq_of_isLeaf Place.plain_ne_ignored trivial
        | object members =>
            rcases members with _ | ⟨member, members⟩
            · exact edit.eq_of_empty rfl
            · cases empty
        | bool | integer | decimal | string | array => cases empty
      subst same
      exact taken
  | some shape =>
      obtain ⟨doc, checked, made⟩ := ok_of_bind taken
      have again := inner stage shape value changed doc edit fits checked
      change (second.check stage shape (Reading.ofJson changed) >>= _) = _
      rw [again]
      exact made

/-- A choice is carried over, whether it is written as a word or as an object. -/
theorem checkChoice_edited {name : Name} {variants : List (String × Option (Shape Name))}
    (form : table name = .choice variants) {doc changed out : Json}
    (edit : Edit table (.shaped (.named name)) doc changed) (fits : changed.depth ≤ room other)
    (done : checkChoice inside stage variants (Reading.ofJson doc) = .ok out) :
    checkChoice other stage variants (Reading.ofJson changed) = .ok out := by
  cases doc with
  | string word =>
      obtain rfl := edit.eq_of_isLeaf (Place.shaped_ne_ignored _) trivial
      exact done
  | object members =>
      obtain ⟨first, entered, taken⟩ := ok_of_bind done
      obtain ⟨key, value, alone, accepted⟩ := exists_member_of_checkChoiceObject taken
      obtain ⟨next, rfl, inner⟩ := edit.single form alone
      obtain ⟨second, rfl, shallow⟩ := exists_of_room fits
      rw [form] at inner
      have again := checkVariant_edited (carries first (mem_of_enter entered) second rfl) inner
        (Nat.le_trans (Nat.le_max_left _ _) shallow) accepted
      cases stage with
      | streamed =>
          change (checkVariant second .streamed variants (.string key) _ >>= _) = _
          rw [again]
          rfl
      | buffered => exact again
  | null | bool | integer | decimal | array => cases stage <;> cases done

omit carries in
/-- A kind stays as it is. -/
theorem eq_of_kindOf {variants : List (Kind Name)} {fallback : Option String} {tag changed : Json}
    {kind : Kind Name} (edit : Edit table .plain tag changed)
    (done : kindOf stage variants fallback (Reading.ofJson tag) = .ok kind) : changed = tag := by
  refine edit.eq_of_isLeaf Place.plain_ne_ignored ?_
  cases tag with
  | array | object => cases done
  | _ => trivial

/-- A tagged record that is written as an object keeps its kind, and its fields are carried over. -/
theorem checkTagged_edited_object {name : Name} {variants : List (Kind Name)}
    {fallback : Option String} (form : table name = .tagged variants fallback)
    (distinct : (Form.tagged variants fallback).Distinct) {members : List (String × Json)}
    {changed out : Json} (edit : Edit table (.shaped (.named name)) (.object members) changed)
    (fits : changed.depth ≤ room other)
    (done : checkTagged inside stage variants fallback (Reading.ofJson (.object members)) =
      .ok out) :
    checkTagged other stage variants fallback (Reading.ofJson changed) = .ok out := by
  obtain ⟨others, rfl⟩ := edit.exists_object (Place.shaped_ne_ignored _)
  obtain ⟨second, rfl, shallow⟩ := exists_of_room fits
  obtain ⟨first, entered, -⟩ := ok_of_bind done
  obtain rfl := mem_of_enter entered
  obtain ⟨tag, kind, fields, single, stands, records, rfl⟩ := of_checkTagged_object done
  have record : (table name).fields? members = some kind.2 := by
    rw [form, Form.fields?, single, List.head?_cons, Option.map_some,
      kindFields_of_kindOf distinct.1 stands]
  have apart := (standsFor_of_kindOf stands).distinct distinct.2.2
  rw [List.nodup_cons] at apart
  have again : named "kind" others = [tag] := by
    have each := edit.named record (.inl rfl) (by rw [single]; exact Nat.le_refl 1)
    rw [single] at each
    obtain ⟨next, _, inner, none, after⟩ := List.forall₂_cons_left_iff.mp each
    rw [form, Form.member, if_pos rfl] at inner
    rw [after, List.forall₂_nil_left_iff.mp none, eq_of_kindOf inner stands]
  refine checkTagged_object again stands shallow ?_
  refine recordOfMembers_edited (carries first rfl second rfl) apart.2 ?_ ?_ records
  · intro slot listed alone
    have strange : slot.name ≠ "kind" := fun same => apart.1 (same ▸ List.mem_map_of_mem listed)
    rw [named_untagged strange] at alone ⊢
    rw [named_untagged strange]
    have each := edit.named record (.inr (List.mem_map_of_mem listed)) alone
    rwa [form, Form.member, if_neg strange, ← form, record, Option.getD_some,
      fieldPlace_of_mem apart.2 listed] at each
  · refine depthOfMembers_le.mpr fun member listed => ?_
    exact depthOfMembers_le.mp shallow member (List.mem_of_mem_filter listed)

/-- A tagged record that is written as an array keeps its kind, and its fields are carried over. -/
theorem checkTagged_edited_array {name : Name} {variants : List (Kind Name)}
    {fallback : Option String} (form : table name = .tagged variants fallback)
    (distinct : (Form.tagged variants fallback).Distinct) {items : List Json} {changed out : Json}
    (edit : Edit table (.shaped (.named name)) (.array items) changed)
    (fits : changed.depth ≤ room other)
    (done : checkTagged inside stage variants fallback (Reading.ofJson (.array items)) = .ok out) :
    checkTagged other stage variants fallback (Reading.ofJson changed) = .ok out := by
  obtain ⟨others, rfl, edited⟩ := edit.exists_array (Place.shaped_ne_ignored _)
  obtain ⟨second, rfl, shallow⟩ := exists_of_room fits
  match items, others, edited with
  | [], [], _ =>
      obtain ⟨_, -, entered⟩ := ok_of_bind done
      cases entered
  | tag :: items, next :: others, edited =>
      obtain ⟨first, entered, taken⟩ := ok_of_bind done
      obtain ⟨kind, stands, taken⟩ := ok_of_bind taken
      obtain ⟨_, -, taken⟩ := ok_of_bind taken
      obtain ⟨_, -, taken⟩ := ok_of_bind taken
      obtain ⟨fields, records, made⟩ := ok_of_bind taken
      have start := edited.1
      have others' := edited.2
      simp only [Place.item, form, Form.item, kindFields_of_kindOf distinct.1 stands]
        at start others'
      obtain rfl := eq_of_kindOf start stands
      rw [depthOfItems, Nat.max_le] at shallow
      have carried := recordOfItems_edited (carries first (mem_of_enter entered) second rfl) others'
        shallow.2 records
      change (kindOf stage variants fallback (Reading.ofJson next) >>= _) = _
      rw [stands]
      change (Reading.wholeItems second.depth (Reading.ofItems others) >>= _) = _
      rw [wholeItems_ofItems, within_of_le shallow.2]
      change (recordOfItems second .buffered kind.2 _ .closed >>= _) = _
      rw [carried]
      exact made

/-- A tagged record is carried over, whether it is written as an object or as an array. -/
theorem checkTagged_edited {name : Name} {variants : List (Kind Name)} {fallback : Option String}
    (form : table name = .tagged variants fallback)
    (distinct : (Form.tagged variants fallback).Distinct) {doc changed out : Json}
    (edit : Edit table (.shaped (.named name)) doc changed) (fits : changed.depth ≤ room other)
    (done : checkTagged inside stage variants fallback (Reading.ofJson doc) = .ok out) :
    checkTagged other stage variants fallback (Reading.ofJson changed) = .ok out := by
  cases doc with
  | object members => exact checkTagged_edited_object carries form distinct edit fits done
  | array items => exact checkTagged_edited_array carries form distinct edit fits done
  | null | bool | integer | decimal | string => cases done

theorem checkForm_edited {name : Name} (distinct : (table name).Distinct) {doc changed out : Json}
    (edit : Edit table (.shaped (.named name)) doc changed) (fits : changed.depth ≤ room other)
    (done : checkForm inside stage (table name) (Reading.ofJson doc) = .ok out) :
    checkForm other stage (table name) (Reading.ofJson changed) = .ok out := by
  cases form : table name with
  | record slots =>
      rw [form] at done distinct
      obtain ⟨members, taken, made⟩ := ok_of_bind done
      have again := checkRecord_edited carries (.inl form) distinct edit fits taken
      rw [checkForm, again]
      exact made
  | stamped field stamp slots =>
      rw [form] at done distinct
      obtain ⟨members, taken, made⟩ := ok_of_bind done
      have again := checkRecord_edited carries (.inr ⟨field, stamp, form⟩) distinct edit fits taken
      rw [checkForm, again]
      exact made
  | choice variants =>
      rw [form] at done
      exact checkChoice_edited carries form edit fits done
  | tuple shapes =>
      rw [form] at done
      cases doc with
      | array items =>
          obtain ⟨others, rfl, edited⟩ := edit.exists_array (Place.shaped_ne_ignored _)
          obtain ⟨second, rfl, shallow⟩ := exists_of_room fits
          obtain ⟨first, entered, inner⟩ := ok_of_bind done
          obtain ⟨docs, taken, made⟩ := ok_of_bind inner
          cases made
          have places : Place.item table items (.shaped (.named name)) =
              (Form.tuple shapes).item items := by
            funext index
            rw [Place.item, form]
          rw [places] at edited
          have again := checkTuple_edited (carries first (mem_of_enter entered) second rfl) edited
            shallow taken
          change (checkTuple second stage shapes (Reading.ofItems others) .closed >>= _) = _
          rw [again]
          rfl
      | null | bool | integer | decimal | string | object => cases done
  | tagged variants fallback =>
      rw [form] at done distinct
      exact checkTagged_edited carries form distinct edit fits done

/-- An edited document has the shape and gives the same. -/
theorem checkShape_edited (distinct : ∀ name, (table name).Distinct) {shape : Shape Name}
    {doc changed out : Json} (edit : Edit table (.shaped shape) doc changed)
    (fits : changed.depth ≤ room other)
    (done : checkShape table inside stage shape (Reading.ofJson doc) = .ok out) :
    checkShape table other stage shape (Reading.ofJson changed) = .ok out := by
  cases shape with
  | named name => exact checkForm_edited carries (distinct name) edit fits done
  | list item =>
      cases doc with
      | array items =>
          obtain ⟨others, rfl, edited⟩ := edit.exists_array (Place.shaped_ne_ignored _)
          obtain ⟨second, rfl, shallow⟩ := exists_of_room fits
          obtain ⟨first, entered, inner⟩ := ok_of_bind done
          obtain ⟨docs, taken, made⟩ := ok_of_bind inner
          have again := checkItems_edited (carries first (mem_of_enter entered) second rfl) edited
            shallow taken
          change (checkItems second stage item (Reading.ofItems others) >>= _) = _
          rw [again]
          exact made
      | null | bool | integer | decimal | string | object => cases done
  | text | flag | natural | integer =>
      have leaf : doc.IsLeaf := by
        cases doc with
        | array | object => cases done
        | _ => trivial
      obtain rfl := edit.eq_of_isLeaf (Place.shaped_ne_ignored _) leaf
      cases changed <;> exact done

end Forms

/-- Checking an edited document gives the same, whatever the limits are, as long as the edited
document fits. -/
theorem carries_conform (distinct : ∀ name, (table name).Distinct) : ∀ limit limit' : Nat,
    Carries table ⟨limit, conform table limit⟩ ⟨limit', conform table limit'⟩ := by
  intro limit
  induction limit with
  | zero =>
      intro limit' stage shape doc changed out edit fits done
      cases limit' with
      | zero => exact @checkShape_edited _ _ none none nofun _ distinct _ _ _ _ edit fits done
      | succ limit' =>
          exact @checkShape_edited _ _ none (some _) nofun _ distinct _ _ _ _ edit fits done
  | succ limit ih =>
      intro limit' stage shape doc changed out edit fits done
      cases limit' with
      | zero =>
          exact @checkShape_edited _ _ (some _) none (fun _ _ => nofun) _ distinct _ _ _ _ edit fits
            done
      | succ limit' =>
          refine @checkShape_edited _ _ (some _) (some _) ?_ _ distinct _ _ _ _ edit fits done
          rintro _ ⟨⟩ _ ⟨⟩
          exact ih limit'

/-- What comes from an accepted document by edits gives the same, however deep the documents in
between are. -/
theorem conform_of_edits (distinct : ∀ name, (table name).Distinct) {limit : Nat} {stage : Stage}
    {shape : Shape Name} {doc changed out : Json} (edits : Edits table (.shaped shape) doc changed)
    (done : conform table limit stage shape (Reading.ofJson doc) = .ok out) :
    ∀ limit', changed.depth ≤ limit' →
      conform table limit' stage shape (Reading.ofJson changed) = .ok out := by
  induction edits with
  | refl =>
      intro limit' fits
      exact carries_conform distinct limit limit' _ _ _ _ _ .same fits done
  | @tail middle last _ edit ih =>
      intro limit' fits
      have before := ih middle.depth (Nat.le_refl _)
      exact carries_conform distinct middle.depth limit' _ _ _ _ _ edit fits before

/-! ## Texts -/

/-- That a text writes a document, with nothing but blanks behind it. -/
def Writes (text : String) (doc : Json) : Prop :=
  ∃ rest, Reading.ofText text.toList = (Reading.ofJson doc, some rest) ∧ skipBlanks rest = []

theorem writes_of_mem_styles {doc : Json} (plain : doc.Plain) {style : Json → String}
    (member : style ∈ styles) : Writes (style doc) doc :=
  ⟨[], ofText_of_mem_styles plain member, rfl⟩

theorem decode_of_writes {text : String} {doc : Json} (writes : Writes text doc)
    (shape : Shape Name) :
    decode table shape text = conform table maxDepth .streamed shape (Reading.ofJson doc) := by
  obtain ⟨rest, read, blank⟩ := writes
  rw [decode, read]
  change (conform table maxDepth .streamed shape (Reading.ofJson doc) >>= _) = _
  rw [Option.map_some, blank]
  cases conform table maxDepth .streamed shape (Reading.ofJson doc) <;> rfl

/-- A text that is accepted as a list of tagged records writes a document. -/
theorem exists_writes {name : Name} {variants : List (Kind Name)} {fallback : Option String}
    (tagged : table name = .tagged variants fallback) {text : String} {out : Json}
    (done : decode table (.list (.named name)) text = .ok out) : ∃ doc, Writes text doc := by
  rw [decode] at done
  generalize read : Reading.ofText text.toList = step at done
  obtain ⟨reading, rest⟩ := step
  obtain ⟨value, checked, behind⟩ := ok_of_bind done
  split at behind
  · rename_i blank
    obtain ⟨left, rfl, empty⟩ := Option.map_eq_some_iff.mp blank
    obtain ⟨doc, rfl⟩ := exists_of_conform_list tagged checked
    exact ⟨doc, left, read, empty⟩
  · cases behind

/-- A text for a document that comes from an accepted one by edits is accepted, unless it is too
deep, and gives the same. -/
theorem decode_of_edits (distinct : ∀ name, (table name).Distinct) {shape : Shape Name}
    {text other : String} {doc changed out : Json} (writes : Writes text doc)
    (edits : Edits table (.shaped shape) doc changed) (again : Writes other changed)
    (fits : changed.depth ≤ maxDepth) (done : decode table shape text = .ok out) :
    decode table shape other = .ok out := by
  rw [decode_of_writes writes] at done
  rw [decode_of_writes again]
  exact conform_of_edits distinct edits done maxDepth fits

end CollectionSchema.Json
