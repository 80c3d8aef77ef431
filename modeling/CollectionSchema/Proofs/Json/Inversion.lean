import CollectionSchema.Proofs.Json.Acceptance
import CollectionSchema.Proofs.Json.Meaning

/-!
# What is accepted has a meaning

Each check is taken apart once: from its outcome it follows what was read and how it
was put together.  So whatever a check gives is what the reading means
(`means_of_conform`), in whichever order the members of an object come and wherever
its kind stands.
-/

set_option autoImplicit false

namespace CollectionSchema.Json

variable {Name : Type}

/-! ## Single steps -/

theorem ok_of_bind {α β : Type} {first : Except Failure α} {next : α → Except Failure β}
    {result : β} (done : (first >>= next) = .ok result) :
    ∃ value, first = .ok value ∧ next value = .ok result := by
  cases first with
  | error failure => cases done
  | ok value => exact ⟨value, rfl, done⟩

theorem mem_of_enter {inside : Option (Inside Name)} {content : Inside Name}
    (entered : enter inside = .ok content) : inside = some content := by
  cases inside with
  | none => cases entered
  | some inner =>
      cases entered
      rfl

theorem eq_closed_of_check {closing : Closing} (done : closing.check = .ok ()) :
    closing = .closed := by
  cases closing with
  | closed => rfl
  | broken failure => cases done

theorem eq_string_of_keyText {key : Reading} {name : String} (done : key.keyText = .ok name) :
    key = .string name := by
  unfold Reading.keyText at done
  split at done
  · cases done
    rfl
  · cases done
  · cases done
  · cases done

theorem mem_of_lookup {α : Type} {entries : List (String × α)} {name : String} {content : α}
    (looked : entries.lookup name = some content) : (name, content) ∈ entries := by
  obtain ⟨front, back, split, -⟩ := List.lookup_eq_some_iff.mp looked
  exact split ▸ List.mem_append_right _ List.mem_cons_self

theorem mem_of_variant {α : Type} {variants : List (String × α)} {name : String} {content : α}
    (chosen : variant variants name = .ok content) : (name, content) ∈ variants := by
  unfold variant at chosen
  split at chosen
  · rename_i found looked
    cases chosen
    exact mem_of_lookup looked
  · cases chosen

theorem eq_of_name_eq {all : List (Slot Name)} (distinct : (all.map Slot.name).Nodup)
    {first second : Slot Name} (left : first ∈ all) (right : second ∈ all)
    (same : first.name = second.name) : first = second := by
  have found := find?_of_mem distinct left
  rw [same, find?_of_mem distinct right] at found
  exact (Option.some.inj found).symm

/-- That what may lie inside an array or an object is given by its meaning. -/
structure Faithful (part : Meaning Name) (inside : Inside Name) : Prop where
  means : ∀ {stage shape reading doc}, inside.check stage shape reading = .ok doc →
    part shape reading doc
  ne_null : ∀ {shape reading doc}, part shape reading doc → doc ≠ .null

section Records

variable {part : Meaning Name} {inside : Inside Name} (faithful : Faithful part inside)
  {stage : Stage}

include faithful

theorem slotMeans_of_checkSlot {slot : Slot Name} {value : Reading} {doc : Json}
    (checked : checkSlot inside stage slot value = .ok doc) :
    SlotMeans part slot (some value) (present slot doc) := by
  obtain ⟨name, shape, presence⟩ := slot
  have given : inside.check stage shape value = .ok doc →
      SlotMeans part ⟨name, shape, presence⟩ (some value)
        (present ⟨name, shape, presence⟩ doc) := by
    intro checked
    have means := faithful.means checked
    have written : present ⟨name, shape, presence⟩ doc = [(name, doc)] := by
      unfold present
      split
      · exact absurd rfl (faithful.ne_null means)
      · rfl
    rw [written]
    exact .given means
  unfold checkSlot at checked
  split at checked
  · rename_i nullable
    cases checked
    have absent : ∀ other ∈ some Reading.null, other = .null := fun other same =>
      (Option.some.inj same).symm
    cases presence with
    | required | defaulted stand => cases nullable
    | nullable => exact .null absent
    | omittable => exact .leftOut absent
  · exact given checked

omit faithful in
theorem slotMeans_of_lacking {slot : Slot Name} {written : List (String × Json)}
    (lacks : lacking slot = .ok written) : SlotMeans part slot none written := by
  obtain ⟨name, shape, presence⟩ := slot
  cases presence with
  | required => cases lacks
  | nullable =>
      cases lacks
      exact .null fun _ none => (nomatch none)
  | omittable =>
      cases lacks
      exact .leftOut fun _ none => (nomatch none)
  | defaulted stand =>
      cases lacks
      exact .stand

/-- What is known of a field once all members were looked at: one that was found before is kept, and
another is found when a member has its name. -/
def Found (inside : Inside Name) (stage : Stage) (slot : Slot Name)
    (given : Option Reading) (before after : Option Json) : Prop :=
  match before, given with
  | some doc, _ => after = some doc
  | none, some value => ∃ doc, checkSlot inside stage slot value = .ok doc ∧ after = some doc
  | none, none => after = none

omit faithful in
theorem found_of_gather {slots : List (Slot Name)} (distinct : (slots.map Slot.name).Nodup)
    {slot : Slot Name} (listed : slot ∈ slots) :
    ∀ {members : List (Reading × Reading)} {before after : List (String × Json)},
      gather inside stage slots members before = .ok after →
        Found inside stage slot (Reading.member? slot.name members) (before.lookup slot.name)
          (after.lookup slot.name)
  | [], before, _, done => by
      cases done
      rw [Reading.member?]
      cases before.lookup slot.name <;> exact rfl
  | (key, value) :: members, before, after, done => by
      rw [gather] at done
      obtain ⟨name, text, entry⟩ := ok_of_bind done
      obtain rfl := eq_string_of_keyText text
      rw [Reading.member?]
      split at entry
      · rename_i unlisted
        obtain ⟨_, -, rest⟩ := ok_of_bind entry
        have other : name ≠ slot.name := by
          rintro rfl
          exact List.find?_eq_none.mp unlisted slot listed (beq_self_eq_true _)
        rw [if_neg other]
        exact found_of_gather distinct listed rest
      · rename_i first looked
        split at entry
        · cases entry
        rename_i fresh
        obtain ⟨doc, checked, rest⟩ := ok_of_bind entry
        have behind := found_of_gather distinct listed rest
        rw [List.lookup_append] at behind
        have matched := List.find?_some looked
        have named : first.name = name := beq_iff_eq.mp matched
        split
        · rename_i same
          obtain rfl := eq_of_name_eq distinct (List.mem_of_find?_eq_some looked) listed
            (named.trans same)
          have absent : before.lookup first.name = none := by
            rw [List.lookup_eq_none_iff]
            intro field member
            rw [named]
            exact bne_iff_ne.mpr fun same =>
              fresh (List.any_eq_true.mpr ⟨field, member, beq_iff_eq.mpr same.symm⟩)
          rw [absent, ← named, Option.none_or, List.lookup_cons_self] at behind
          rw [absent]
          exact ⟨doc, checked, behind⟩
        · rename_i other
          have last : [(name, doc)].lookup slot.name = none := by
            rw [List.lookup_eq_none_iff]
            intro field member
            rw [List.mem_singleton.mp member]
            exact bne_iff_ne.mpr fun same => other same.symm
          rw [last, Option.or_none] at behind
          exact behind

/-- The fields that are wanted are arranged into what they mean. -/
theorem fieldsMean_of_arrange {all : List (Slot Name)} (distinct : (all.map Slot.name).Nodup)
    {found : List (Reading × Reading)} {gathered : List (String × Json)}
    (gathers : gather inside stage all found [] = .ok gathered) :
    ∀ {slots : List (Slot Name)} {members : List (String × Json)}, (∀ slot ∈ slots, slot ∈ all) →
      arrange gathered slots = .ok members → FieldsMean part (byName slots found) members
  | [], _, _, arranged => by
      cases arranged
      exact .none
  | slot :: slots, _, wanted, arranged => by
      have behind : ∀ {others}, arrange gathered slots = .ok others →
          FieldsMean part (byName slots found) others :=
        fieldsMean_of_arrange distinct gathers
          fun slot member => wanted slot (List.mem_cons_of_mem _ member)
      have known := found_of_gather distinct (wanted slot List.mem_cons_self) gathers
      rw [arrange] at arranged
      cases given : Reading.member? slot.name found with
      | none =>
          rw [given] at known
          rw [show gathered.lookup slot.name = none from known] at arranged
          obtain ⟨written, lacks, after⟩ := ok_of_bind arranged
          obtain ⟨others, rest, same⟩ := ok_of_bind after
          cases same
          rw [byName, List.map_cons, given]
          exact .more (slotMeans_of_lacking lacks) (behind rest)
      | some value =>
          rw [given] at known
          obtain ⟨doc, checked, looked⟩ := known
          rw [looked] at arranged
          obtain ⟨_, ⟨⟩, after⟩ := ok_of_bind arranged
          obtain ⟨others, rest, same⟩ := ok_of_bind after
          cases same
          rw [byName, List.map_cons, given]
          exact .more (slotMeans_of_checkSlot faithful checked) (behind rest)

theorem fieldsMean_of_recordOfItems :
    ∀ {slots : List (Slot Name)} {items : List Reading} {closing : Closing}
      {members : List (String × Json)},
      recordOfItems inside stage slots items closing = .ok members →
        closing = .closed ∧ items.length ≤ slots.length ∧
          FieldsMean part (byPlace slots items) members
  | [], [], _, _, done => by
      obtain ⟨_, closed, same⟩ := ok_of_bind done
      cases same
      exact ⟨eq_closed_of_check closed, Nat.le_refl _, .none⟩
  | [], _ :: _, _, _, done => by
      cases stage <;> cases done
  | slot :: slots, [], closing, members, done => by
      rw [recordOfItems] at done
      obtain ⟨_, closed, done⟩ := ok_of_bind done
      have lacks : ∃ written, lacking slot = .ok written ∧
          (recordOfItems inside stage slots [] closing >>= fun others =>
            pure (written ++ others)) = .ok members := by
        obtain ⟨name, shape, presence⟩ := slot
        cases presence with
        | required | nullable => cases done
        | omittable | defaulted stand => exact ⟨_, rfl, done⟩
      obtain ⟨written, lacks, after⟩ := lacks
      obtain ⟨others, rest, same⟩ := ok_of_bind after
      cases same
      obtain ⟨-, -, means⟩ := fieldsMean_of_recordOfItems rest
      exact ⟨eq_closed_of_check closed, Nat.zero_le _, .more (slotMeans_of_lacking lacks) means⟩
  | slot :: slots, item :: items, closing, _, done => by
      rw [recordOfItems] at done
      obtain ⟨value, checked, done⟩ := ok_of_bind done
      obtain ⟨others, rest, same⟩ := ok_of_bind done
      cases same
      obtain ⟨closed, few, means⟩ := fieldsMean_of_recordOfItems rest
      exact ⟨closed, Nat.succ_le_succ few, .more (slotMeans_of_checkSlot faithful checked) means⟩

theorem tupleMeans_of_checkTuple :
    ∀ {shapes : List (Shape Name)} {items : List Reading} {closing : Closing} {docs : List Json},
      checkTuple inside stage shapes items closing = .ok docs →
        closing = .closed ∧ TupleMeans part shapes items docs
  | [], [], _, _, done => by
      obtain ⟨_, closed, same⟩ := ok_of_bind done
      cases same
      exact ⟨eq_closed_of_check closed, .none⟩
  | [], _ :: _, _, _, done => by
      cases stage <;> cases done
  | _ :: _, [], _, _, done => by
      obtain ⟨_, -, wrong⟩ := ok_of_bind done
      cases wrong
  | shape :: shapes, item :: items, _, _, done => by
      obtain ⟨value, checked, done⟩ := ok_of_bind done
      obtain ⟨others, rest, same⟩ := ok_of_bind done
      cases same
      obtain ⟨closed, means⟩ := tupleMeans_of_checkTuple rest
      exact ⟨closed, .more (faithful.means checked) means⟩

theorem forall₂_of_checkItems {shape : Shape Name} :
    ∀ {items : List Reading} {docs : List Json}, checkItems inside stage shape items = .ok docs →
      List.Forall₂ (part shape) items docs
  | [], _, done => by
      cases done
      exact .nil
  | item :: items, _, done => by
      obtain ⟨value, checked, done⟩ := ok_of_bind done
      obtain ⟨others, rest, same⟩ := ok_of_bind done
      cases same
      exact .cons (faithful.means checked) (forall₂_of_checkItems rest)

/-- The members of an object are arranged into what they mean as a record. -/
theorem fieldsMean_of_recordOfMembers {slots : List (Slot Name)}
    (distinct : (slots.map Slot.name).Nodup) {found : List (Reading × Reading)}
    {closing : Closing} {members : List (String × Json)}
    (done : recordOfMembers inside stage slots found closing = .ok members) :
    closing = .closed ∧ FieldsMean part (byName slots found) members := by
  obtain ⟨gathered, gathers, done⟩ := ok_of_bind done
  obtain ⟨_, closed, arranged⟩ := ok_of_bind done
  exact ⟨eq_closed_of_check closed,
    fieldsMean_of_arrange faithful distinct gathers (fun _ member => member) arranged⟩

/-- An object with a single member means a variant. -/
theorem formMeans_of_checkVariant {variants : List (String × Option (Shape Name))}
    {key value : Reading} {closing : Closing} {doc : Json}
    (done : checkVariant inside stage variants key value = .ok doc) :
    FormMeans (some part) (.choice variants) (.object [(key, value)] closing) doc := by
  obtain ⟨name, text, named⟩ := ok_of_bind done
  obtain rfl := eq_string_of_keyText text
  obtain ⟨content, chosen, done⟩ := ok_of_bind named
  have listed := mem_of_variant chosen
  cases content with
  | none =>
      obtain ⟨_, empty, same⟩ := ok_of_bind done
      cases same
      refine .unit rfl listed ?_
      unfold checkUnit at empty
      split at empty
      · exact .inl rfl
      · exact .inr rfl
      · rename_i other
        unfold otherType at empty
        split at empty <;> cases empty
  | some shape =>
      obtain ⟨inner, checked, same⟩ := ok_of_bind done
      cases same
      exact .variant rfl listed (faithful.means checked)

end Records

/-! ## Kinds -/

section Kinds

variable {inside : Inside Name} {stage : Stage} {variants : List (Kind Name)}
  {fallback : Option String}

theorem standsFor_of_unknownKind {tag : Reading} (strange : ∀ kind, ¬ Names variants tag kind)
    {mismatched : Mismatch} {kind : Kind Name}
    (done : unknownKind fallback mismatched = .ok kind) : StandsFor variants fallback tag kind := by
  cases fallback with
  | none => cases done
  | some name =>
      cases done
      exact .fallback strange

theorem standsFor_of_kindOf {tag : Reading} {kind : Kind Name}
    (done : kindOf stage variants fallback tag = .ok kind) :
    StandsFor variants fallback tag kind := by
  cases tag with
  | string name =>
      rw [kindOf] at done
      split at done
      · rename_i found looked
        cases done
        have named := List.find?_some looked
        rw [← beq_iff_eq.mp named]
        exact .listed (.word (List.mem_of_find?_eq_some looked))
      · rename_i absent
        refine standsFor_of_unknownKind (fun other names => ?_) done
        cases names with
        | word listed => exact List.find?_eq_none.mp absent other listed (beq_self_eq_true _)
  | integer value =>
      rw [kindOf] at done
      split at done
      · rename_i counts
        obtain ⟨index, rfl⟩ := Int.eq_ofNat_of_zero_le counts.2
        split at done
        · rename_i found looked
          cases done
          exact .listed (.number looked)
        · rename_i absent
          refine standsFor_of_unknownKind (fun other names => ?_) done
          generalize same : Reading.integer (index : Int) = tag at names
          cases names with
          | word listed => cases same
          | number listed =>
              rw [← Int.ofNat.inj (Reading.integer.inj same)] at listed
              exact absurd (absent.symm.trans listed) (by simp)
      · cases done
  | null | bool | decimal | array | object | fault => cases done

/-- Splitting off the kind leaves the other members as they are. -/
theorem member?_of_splitKind :
    ∀ {members : List (Reading × Reading)} {before found : Option (Kind Name)}
      {others : List (Reading × Reading)},
      splitKind inside stage variants fallback members before = .ok (found, others) →
        ∀ name, name ≠ "kind" → Reading.member? name others = Reading.member? name members
  | [], _, _, _, done, _, _ => by
      cases done
      rfl
  | (key, value) :: members, before, _, _, done, name, other => by
      rw [splitKind] at done
      obtain ⟨text, named, done⟩ := ok_of_bind done
      obtain rfl := eq_string_of_keyText named
      split at done
      · rename_i same
        split at done
        · cases done
        obtain ⟨kind, -, rest⟩ := ok_of_bind done
        rw [member?_of_splitKind rest name other, Reading.member?, if_neg (same ▸ other.symm)]
      · obtain ⟨_, -, done⟩ := ok_of_bind done
        obtain ⟨⟨found, others⟩, rest, same⟩ := ok_of_bind done
        cases same
        rw [Reading.member?, Reading.member?, member?_of_splitKind rest name other]

/-- Once there is a kind, no other is accepted. -/
theorem eq_of_splitKind_some :
    ∀ {members : List (Reading × Reading)} {kind : Kind Name} {found : Option (Kind Name)}
      {others : List (Reading × Reading)},
      splitKind inside stage variants fallback members (some kind) = .ok (found, others) →
        found = some kind
  | [], _, _, _, done => by
      cases done
      rfl
  | (key, value) :: members, kind, _, _, done => by
      rw [splitKind] at done
      obtain ⟨text, -, done⟩ := ok_of_bind done
      split at done
      · cases done
      · obtain ⟨_, -, done⟩ := ok_of_bind done
        obtain ⟨⟨found, others⟩, rest, same⟩ := ok_of_bind done
        cases same
        exact eq_of_splitKind_some rest

/-- The kind that is split off is the one that the member for it stands for. -/
theorem standsFor_of_splitKind :
    ∀ {members : List (Reading × Reading)} {kind : Kind Name} {others : List (Reading × Reading)},
      splitKind inside stage variants fallback members none = .ok (some kind, others) →
        ∃ tag, Reading.member? "kind" members = some tag ∧ StandsFor variants fallback tag kind
  | [], _, _, done => by cases done
  | (key, value) :: members, kind, _, done => by
      rw [splitKind] at done
      obtain ⟨text, named, done⟩ := ok_of_bind done
      obtain rfl := eq_string_of_keyText named
      rw [Reading.member?]
      split at done
      · rename_i same
        obtain ⟨first, stands, rest⟩ := ok_of_bind done
        cases eq_of_splitKind_some rest
        rw [if_pos same]
        exact ⟨value, rfl, standsFor_of_kindOf stands⟩
      · rename_i other
        obtain ⟨_, -, done⟩ := ok_of_bind done
        obtain ⟨⟨found, others⟩, rest, same⟩ := ok_of_bind done
        cases same
        rw [if_neg other]
        exact standsFor_of_splitKind rest

omit inside stage in
/-- The fields of a kind are apart from each other and from the kind itself. -/
theorem StandsFor.distinct {tag : Reading} {kind : Kind Name}
    (stands : StandsFor variants fallback tag kind)
    (distinct : ∀ kind ∈ variants, ("kind" :: kind.2.map Slot.name).Nodup) :
    ("kind" :: kind.2.map Slot.name).Nodup := by
  cases stands with
  | listed names =>
      cases names with
      | word listed => exact distinct _ listed
      | number listed => exact distinct _ (List.mem_of_getElem? listed)
  | fallback strange => exact List.nodup_cons.mpr ⟨List.not_mem_nil, List.nodup_nil⟩

end Kinds

/-! ## Forms and shapes -/

/-- A choice that is written as an object has a single member, which names the variant. -/
theorem exists_of_checkChoiceObject {inside : Inside Name} {stage : Stage}
    {variants : List (String × Option (Shape Name))} {members : List (Reading × Reading)}
    {closing : Closing} {doc : Json}
    (done : checkChoiceObject inside stage variants members closing = .ok doc) :
    ∃ key value, members = [(key, value)] ∧
      checkVariant inside stage variants key value = .ok doc := by
  match stage, members, done with
  | .streamed, [], wrong =>
      obtain ⟨_, -, wrong⟩ := ok_of_bind wrong
      cases wrong
  | .streamed, [(key, value)], inner =>
      obtain ⟨checked, accepted, after⟩ := ok_of_bind inner
      obtain ⟨_, -, last⟩ := ok_of_bind after
      cases last
      exact ⟨key, value, rfl, accepted⟩
  | .streamed, _ :: _ :: _, inner =>
      obtain ⟨_, -, wrong⟩ := ok_of_bind inner
      cases wrong
  | .buffered, [(key, value)], inner => exact ⟨key, value, rfl, inner⟩
  | .buffered, [], wrong | .buffered, _ :: _ :: _, wrong => cases wrong

/-- That what may lie inside, if anything may, is given by its meaning. -/
def FaithfulInside : Option (Meaning Name) → Option (Inside Name) → Prop
  | some part, some inside => Faithful part inside
  | none, none => True
  | _, _ => False

section Shapes

variable {meanings : Option (Meaning Name)} {inside : Option (Inside Name)}
  (faithful : FaithfulInside meanings inside) {stage : Stage}

theorem FaithfulInside.enter (faithful : FaithfulInside meanings inside) {content : Inside Name}
    (entered : enter inside = .ok content) : ∃ part ∈ meanings, Faithful part content := by
  cases mem_of_enter entered
  cases meanings with
  | none => exact faithful.elim
  | some part => exact ⟨part, rfl, faithful⟩

include faithful

theorem fieldsMean_of_checkRecord {slots : List (Slot Name)}
    (distinct : (slots.map Slot.name).Nodup) {reading : Reading} {members : List (String × Json)}
    (done : checkRecord inside stage slots reading = .ok members) :
    ∃ part ∈ meanings, ∃ fields, Gives slots reading fields ∧ FieldsMean part fields members := by
  cases reading with
  | object found closing =>
      obtain ⟨content, entered, done⟩ := ok_of_bind done
      obtain ⟨part, enters, faithful⟩ := faithful.enter entered
      obtain ⟨rfl, means⟩ := fieldsMean_of_recordOfMembers faithful distinct done
      exact ⟨part, enters, _, .members, means⟩
  | array items closing =>
      obtain ⟨content, entered, done⟩ := ok_of_bind done
      obtain ⟨part, enters, faithful⟩ := faithful.enter entered
      obtain ⟨rfl, few, means⟩ := fieldsMean_of_recordOfItems faithful done
      exact ⟨part, enters, _, .items few, means⟩
  | null | bool | integer | decimal | string | fault => cases done

theorem formMeans_of_checkChoice {variants : List (String × Option (Shape Name))}
    {reading : Reading} {doc : Json} (done : checkChoice inside stage variants reading = .ok doc) :
    FormMeans meanings (.choice variants) reading doc := by
  cases reading with
  | string name =>
      obtain ⟨content, chosen, done⟩ := ok_of_bind done
      cases content with
      | none =>
          cases done
          exact .word (mem_of_variant chosen)
      | some shape => cases done
  | object members closing =>
      obtain ⟨content, entered, inner⟩ := ok_of_bind done
      obtain ⟨part, rfl, inside⟩ := faithful.enter entered
      obtain ⟨key, value, rfl, accepted⟩ := exists_of_checkChoiceObject inner
      exact formMeans_of_checkVariant inside accepted
  | fault head decoding skipping =>
      unfold checkChoice at done
      split at done
      · rename_i same
        cases same
      · rename_i same
        cases same
      · cases done
      · cases done
      · cases stage <;> cases done
  | null | bool | integer | decimal | array => cases stage <;> cases done

theorem formMeans_of_checkTagged {variants : List (Kind Name)} {fallback : Option String}
    (distinct : ∀ kind ∈ variants, ("kind" :: kind.2.map Slot.name).Nodup)
    {reading : Reading} {doc : Json}
    (done : checkTagged inside stage variants fallback reading = .ok doc) :
    FormMeans meanings (.tagged variants fallback) reading doc := by
  cases reading with
  | object members closing =>
      obtain ⟨content, entered, inner⟩ := ok_of_bind done
      obtain ⟨part, enters, faithful⟩ := faithful.enter entered
      obtain ⟨⟨found, others⟩, split, inner⟩ := ok_of_bind inner
      obtain ⟨_, closed, behind⟩ := ok_of_bind inner
      obtain rfl := eq_closed_of_check closed
      cases found with
      | none => cases behind
      | some kind =>
          obtain ⟨fields, taken, same⟩ := ok_of_bind behind
          cases same
          obtain ⟨tag, given, stands⟩ := standsFor_of_splitKind split
          obtain ⟨other, names⟩ := List.nodup_cons.mp (stands.distinct distinct)
          obtain ⟨-, means⟩ := fieldsMean_of_recordOfMembers faithful names taken
          have same : byName kind.2 others = byName kind.2 members :=
            List.map_congr_left fun slot listed => by
              rw [member?_of_splitKind split slot.name fun same =>
                other (same ▸ List.mem_map_of_mem listed)]
          rw [same] at means
          exact .tagged enters (.member given) stands .members means
  | array items closing =>
      cases items with
      | nil =>
          obtain ⟨_, -, inner⟩ := ok_of_bind done
          obtain ⟨_, -, inner⟩ := ok_of_bind inner
          cases inner
      | cons tag others =>
          obtain ⟨content, entered, inner⟩ := ok_of_bind done
          obtain ⟨part, enters, faithful⟩ := faithful.enter entered
          obtain ⟨kind, named, inner⟩ := ok_of_bind inner
          obtain ⟨_, -, inner⟩ := ok_of_bind inner
          obtain ⟨_, closed, behind⟩ := ok_of_bind inner
          obtain rfl := eq_closed_of_check closed
          obtain ⟨fields, taken, same⟩ := ok_of_bind behind
          cases same
          obtain ⟨-, few, means⟩ := fieldsMean_of_recordOfItems faithful taken
          exact .tagged enters .item (standsFor_of_kindOf named) (.items few) means
  | null | bool | integer | decimal | string | fault => cases done

theorem formMeans_of_checkForm {form : Form Name} (distinct : form.Distinct) {reading : Reading}
    {doc : Json} (done : checkForm inside stage form reading = .ok doc) :
    FormMeans meanings form reading doc := by
  cases form with
  | record slots =>
      obtain ⟨members, taken, same⟩ := ok_of_bind done
      cases same
      obtain ⟨part, enters, fields, gives, means⟩ :=
        fieldsMean_of_checkRecord faithful distinct taken
      exact .record enters gives means
  | stamped field stamp slots =>
      obtain ⟨members, taken, stamped⟩ := ok_of_bind done
      obtain ⟨part, enters, fields, gives, means⟩ :=
        fieldsMean_of_checkRecord faithful distinct taken
      unfold checkStamp at stamped
      split at stamped
      · rename_i text looked
        split at stamped
        · rename_i same
          cases stamped
          exact .stamped enters gives means (same ▸ looked)
        · cases stamped
      · cases stamped
  | choice variants => exact formMeans_of_checkChoice faithful done
  | tuple shapes =>
      cases reading with
      | array items closing =>
          obtain ⟨content, entered, inner⟩ := ok_of_bind done
          obtain ⟨part, enters, faithful⟩ := faithful.enter entered
          obtain ⟨values, taken, same⟩ := ok_of_bind inner
          cases same
          obtain ⟨rfl, means⟩ := tupleMeans_of_checkTuple faithful taken
          exact .tuple enters means
      | null | bool | integer | decimal | string | object | fault => cases done
  | tagged variants fallback => exact formMeans_of_checkTagged faithful distinct.2.2 done

theorem shapeMeans_of_checkShape {table : Name → Form Name}
    (distinct : ∀ name, (table name).Distinct) {shape : Shape Name} {reading : Reading} {doc : Json}
    (done : checkShape table inside stage shape reading = .ok doc) :
    ShapeMeans meanings table shape reading doc := by
  unfold checkShape at done
  split at done
  · cases done
    exact .text _
  · cases done
    exact .flag _
  · split at done
    · rename_i positive
      cases done
      exact .natural positive
    · cases done
  · split at done
    · rename_i small
      cases done
      exact .integer small
    · cases done
  · obtain ⟨content, entered, inner⟩ := ok_of_bind done
    obtain ⟨part, enters, faithful⟩ := faithful.enter entered
    obtain ⟨values, taken, rest⟩ := ok_of_bind inner
    obtain ⟨_, closed, same⟩ := ok_of_bind rest
    cases same
    obtain rfl := eq_closed_of_check closed
    exact .list enters (forall₂_of_checkItems faithful taken)
  · rename_i name
    exact .named (formMeans_of_checkForm faithful (distinct name) done)
  · cases reading <;> cases done

end Shapes

/-- What a check gives is what the reading means. -/
theorem means_of_conform {table : Name → Form Name} (distinct : ∀ name, (table name).Distinct) :
    ∀ {limit : Nat} {stage : Stage} {shape : Shape Name} {reading : Reading} {doc : Json},
      conform table limit stage shape reading = .ok doc → Means table limit shape reading doc
  | 0, _, _, _, _, done =>
      @shapeMeans_of_checkShape _ none none trivial _ _ distinct _ _ _ done
  | limit + 1, _, _, _, _, done => by
      have inner : Faithful (Means table limit) ⟨limit, conform table limit⟩ :=
        ⟨means_of_conform distinct, Means.ne_null⟩
      exact @shapeMeans_of_checkShape _ (some (Means table limit))
        (some ⟨limit, conform table limit⟩) inner _ _ distinct _ _ _ done

end CollectionSchema.Json
