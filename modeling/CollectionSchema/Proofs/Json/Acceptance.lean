import CollectionSchema.Proofs.Json.Canonical

/-!
# A canonical document is accepted as itself

Checking a canonical document gives the document back when it is not too deep, and
fails for its depth otherwise.  Nothing else can go wrong, so the outcome of each
check is given by a depth alone, and one check after another has the greater of
their depths.
-/

set_option autoImplicit false

namespace CollectionSchema.Json

/-! ## Outcomes that depend on a depth -/

/-- A value, unless its depth is beyond a limit. -/
def within {α : Type} (limit depth : Nat) (value : α) : Except Failure α :=
  if depth ≤ limit then .ok value else .error .malformed

section Within

variable {α β : Type} {limit first second : Nat} {value : α} {result : β}

theorem within_of_le (less : first ≤ limit) : within limit first value = .ok value :=
  if_pos less

theorem within_of_lt (more : limit < first) : within limit first value = .error .malformed :=
  if_neg (Nat.not_le_of_lt more)

theorem within_succ : within (limit + 1) (first + 1) value = within limit first value := by
  simp only [within, Nat.add_le_add_iff_right]

theorem within_bind {next : α → Except Failure β}
    (behind : next value = within limit second result) :
    (within limit first value >>= next) = within limit (max first second) result := by
  rcases Nat.lt_or_ge limit first with more | less
  · rw [within_of_lt more, within_of_lt (Nat.lt_of_lt_of_le more (Nat.le_max_left _ _))]
    rfl
  · rw [within_of_le less]
    change next value = _
    rw [behind]
    simp only [within, Nat.max_le, less, true_and]

theorem within_map {finish : α → Except Failure β} (done : finish value = .ok result) :
    (within limit first value >>= finish) = within limit first result := by
  have behind : finish value = within limit 0 result :=
    done.trans (within_of_le (Nat.zero_le _)).symm
  rw [within_bind behind, Nat.max_zero]

end Within

variable {Name : Type} {table : Name → Form Name}

/-! ## Records -/

/-- Whether canonical documents are accepted as themselves, up to a depth. -/
def Accepts (table : Name → Form Name) (inside : Inside Name) : Prop :=
  ∀ stage shape value, Canonical table shape value →
    inside.check stage shape (Reading.ofJson value) = within inside.depth value.depth value

theorem find?_of_mem {α : Type} {name : α → String} {entries : List α}
    (distinct : (entries.map name).Nodup) {entry : α} (member : entry ∈ entries) :
    entries.find? (fun other => name other == name entry) = some entry := by
  induction entries with
  | nil => cases member
  | cons first rest ih =>
      rw [List.map_cons, List.nodup_cons] at distinct
      rcases List.mem_cons.mp member with rfl | inside
      · exact List.find?_cons_of_pos (beq_self_eq_true _)
      · have other : name first ≠ name entry := fun same =>
          distinct.1 (same ▸ List.mem_map_of_mem inside)
        rw [List.find?_cons_of_neg (by simpa using other)]
        exact ih distinct.2 inside

/-- Every member of a record belongs to a field. -/
theorem FieldsOf.name_mem {part : Shape Name → Json → Prop} {slots : List (Slot Name)}
    {members : List (String × Json)} (fields : FieldsOf part slots members) :
    ∀ member ∈ members, member.1 ∈ slots.map Slot.name := by
  induction fields with
  | none => exact fun _ member => by cases member
  | written _ _ ih =>
      intro member inside
      rcases List.mem_cons.mp inside with rfl | inside
      · exact List.mem_cons_self
      · exact List.mem_cons_of_mem _ (ih member inside)
  | omitted _ _ ih => exact fun member inside => List.mem_cons_of_mem _ (ih member inside)

theorem lookup_eq_none_of_not_mem {slots : List (Slot Name)} {members : List (String × Json)}
    (names : ∀ member ∈ members, member.1 ∈ slots.map Slot.name) {name : String}
    (absent : name ∉ slots.map Slot.name) : members.lookup name = none := by
  rw [List.lookup_eq_none_iff]
  intro member inside
  exact bne_iff_ne.mpr fun same => absent (same ▸ names member inside)

/-- A value that is written for a field is kept. -/
theorem SlotOf.present_eq {slot : Slot Name} {value : Json}
    (stands : SlotOf (Canonical table) slot value) : present slot value = [(slot.name, value)] := by
  cases stands with
  | filled fits =>
      unfold present
      split
      · exact absurd rfl fits.ne_null
      · rfl
  | null => rfl

/-- The fields that were gathered from a record are the members that they stand for. -/
theorem arrange_of_fields {slots : List (Slot Name)} {members : List (String × Json)}
    (fields : FieldsOf (Canonical table) slots members) (distinct : (slots.map Slot.name).Nodup)
    {found : List (String × Json)}
    (agree : ∀ slot ∈ slots, found.lookup slot.name = members.lookup slot.name) :
    arrange found slots = .ok members := by
  induction fields with
  | none => rfl
  | @written slot slots value members stands others ih =>
      rw [List.map_cons, List.nodup_cons] at distinct
      have first : found.lookup slot.name = some value := by
        rw [agree slot List.mem_cons_self, List.lookup_cons_self]
      have rest : arrange found slots = .ok members := by
        refine ih distinct.2 fun next inside => ?_
        have other : next.name ≠ slot.name := fun same =>
          distinct.1 (same ▸ List.mem_map_of_mem inside)
        rw [agree next (List.mem_cons_of_mem _ inside), List.lookup_cons, beq_false_of_ne other]
      simp only [arrange, first, rest, stands.present_eq]
      rfl
  | @omitted slot slots members omittable others ih =>
      rw [List.map_cons, List.nodup_cons] at distinct
      have first : found.lookup slot.name = none := by
        rw [agree slot List.mem_cons_self]
        exact lookup_eq_none_of_not_mem others.name_mem distinct.1
      have rest : arrange found slots = .ok members :=
        ih distinct.2 fun next inside => agree next (List.mem_cons_of_mem _ inside)
      simp only [arrange, first, rest, lacking, omittable]
      rfl

section Records

variable {inside : Inside Name} (accepts : Accepts table inside) (stage : Stage)

include accepts

theorem checkSlot_ofJson {slot : Slot Name} {value : Json}
    (stands : SlotOf (Canonical table) slot value) :
    checkSlot inside stage slot (Reading.ofJson value) =
      within inside.depth value.depth value := by
  cases stands with
  | filled fits =>
      have filled : Reading.ofJson value ≠ .null := by
        have some := fits.ne_null
        cases value with
        | null => exact absurd rfl some
        | _ => simp [Reading.ofJson]
      unfold checkSlot
      split
      · exact absurd (by assumption) filled
      · exact accepts stage _ _ fits
  | null => exact (within_of_le (Nat.zero_le _)).symm

/-- The members of a record are gathered behind those that were found before, when all of their
fields are among the wanted ones and none of them was found. -/
theorem gather_ofMembers {all : List (Slot Name)} (distinct : (all.map Slot.name).Nodup)
    {slots : List (Slot Name)} {members : List (String × Json)}
    (fields : FieldsOf (Canonical table) slots members) (wanted : ∀ slot ∈ slots, slot ∈ all)
    (apart : (slots.map Slot.name).Nodup) :
    ∀ {found : List (String × Json)}, (∀ slot ∈ slots, ∀ field ∈ found, field.1 ≠ slot.name) →
      gather inside stage all (Reading.ofMembers members) found =
        within inside.depth (depthOfMembers members) (found ++ members) := by
  induction fields with
  | none =>
      intro found _
      rw [List.append_nil]
      exact (within_of_le (Nat.zero_le _)).symm
  | @written slot slots value members stands others ih =>
      intro found unmet
      rw [List.map_cons, List.nodup_cons] at apart
      have looked := find?_of_mem distinct (wanted slot List.mem_cons_self)
      have first : (found.any fun field => field.1 == slot.name) = false := by
        simpa using unmet slot List.mem_cons_self
      have others : ∀ next ∈ slots, ∀ field ∈ found ++ [(slot.name, value)],
          field.1 ≠ next.name := by
        intro next member field either
        rcases List.mem_append.mp either with before | last
        · exact unmet next (List.mem_cons_of_mem _ member) field before
        · rw [List.mem_singleton.mp last]
          exact fun same => apart.1 (List.mem_map.mpr ⟨next, member, same.symm⟩)
      have behind := ih (fun next member => wanted next (List.mem_cons_of_mem _ member)) apart.2
        others
      rw [List.append_assoc] at behind
      have step : gather inside stage all
          ((.string slot.name, Reading.ofJson value) :: Reading.ofMembers members) found =
            (checkSlot inside stage slot (Reading.ofJson value) >>= fun checked =>
              gather inside stage all (Reading.ofMembers members)
                (found ++ [(slot.name, checked)])) := by
        rw [gather]
        simp only [Reading.keyText, bind, Except.bind, looked, first, Bool.false_eq_true, if_false]
      rw [Reading.ofMembers, step, checkSlot_ofJson accepts stage stands]
      exact within_bind behind
  | omitted _ _ ih =>
      intro found unmet
      exact ih (fun slot member => wanted slot (List.mem_cons_of_mem _ member))
        (List.nodup_cons.mp apart).2 fun slot member => unmet slot (List.mem_cons_of_mem _ member)

/-- The members of a record are accepted as themselves. -/
theorem recordOfMembers_ofMembers {slots : List (Slot Name)}
    (distinct : (slots.map Slot.name).Nodup) {members : List (String × Json)}
    (fields : FieldsOf (Canonical table) slots members) :
    recordOfMembers inside stage slots (Reading.ofMembers members) .closed =
      within inside.depth (depthOfMembers members) members := by
  have gathered := gather_ofMembers accepts stage distinct fields (fun _ member => member)
    distinct fun _ _ _ none => (List.not_mem_nil none).elim
  have arranged : arrange members slots = .ok members :=
    arrange_of_fields fields distinct fun _ _ => rfl
  rw [recordOfMembers, gathered, List.nil_append]
  exact within_map arranged

theorem checkItems_ofItems {shape : Shape Name} {items : List Json}
    (fit : ∀ item ∈ items, Canonical table shape item) :
    checkItems inside stage shape (Reading.ofItems items) =
      within inside.depth (depthOfItems items) items := by
  induction items with
  | nil => exact (within_of_le (Nat.zero_le _)).symm
  | cons item rest ih =>
      have first := accepts stage shape item (fit item List.mem_cons_self)
      have others := ih fun next member => fit next (List.mem_cons_of_mem _ member)
      rw [Reading.ofItems, checkItems, first]
      refine within_bind ?_
      rw [others]
      exact within_map rfl

theorem checkTuple_ofItems {shapes : List (Shape Name)} {items : List Json}
    (fit : List.Forall₂ (Canonical table) shapes items) :
    checkTuple inside stage shapes (Reading.ofItems items) .closed =
      within inside.depth (depthOfItems items) items := by
  induction fit with
  | nil => exact (within_of_le (Nat.zero_le _)).symm
  | @cons shape item shapes items fits _ ih =>
      rw [Reading.ofItems, checkTuple, accepts stage shape item fits]
      refine within_bind ?_
      rw [ih]
      exact within_map rfl

end Records

/-! ## Forms -/

/-- How many arrays and objects may lie inside each other, by what may lie inside the first. -/
def room : Option (Inside Name) → Nat
  | none => 0
  | some inside => inside.depth + 1

/-- Something that goes inside is held to the depth that is left there. -/
theorem enter_bind {α : Type} {inside : Option (Inside Name)}
    {next : Inside Name → Except Failure α} {result : α} {depth : Nat}
    (entered : ∀ content ∈ inside, next content = within content.depth depth result) :
    (enter inside >>= next) = within (room inside) (depth + 1) result := by
  cases inside with
  | none => exact (within_of_lt (Nat.succ_pos depth)).symm
  | some content =>
      change next content = within (content.depth + 1) (depth + 1) result
      rw [entered content rfl, within_succ]

/-- Whether the names in a form are apart, so that each of them says what it stands for. -/
def Form.Distinct : Form Name → Prop
  | .record slots | .stamped _ _ slots => (slots.map Slot.name).Nodup
  | .choice variants => (variants.map Prod.fst).Nodup
  | .tuple _ => True
  | .tagged variants fallback =>
    (variants.map Prod.fst).Nodup ∧ (∀ name ∈ fallback, name ∉ variants.map Prod.fst) ∧
      ∀ kind ∈ variants, ("kind" :: kind.2.map Slot.name).Nodup

theorem lookup_of_mem {α : Type} {entries : List (String × α)}
    (distinct : (entries.map Prod.fst).Nodup) {name : String} {content : α}
    (member : (name, content) ∈ entries) : entries.lookup name = some content := by
  induction entries with
  | nil => cases member
  | cons first rest ih =>
      rw [List.map_cons, List.nodup_cons] at distinct
      rcases List.mem_cons.mp member with rfl | inside
      · exact List.lookup_cons_self
      · have other : name ≠ first.1 := fun same =>
          distinct.1 (same ▸ List.mem_map_of_mem inside)
        rw [List.lookup_cons, beq_false_of_ne other]
        exact ih distinct.2 inside

theorem checkChoice_string (inside : Option (Inside Name)) (stage : Stage)
    {variants : List (String × Option (Shape Name))}
    (distinct : (variants.map Prod.fst).Nodup) {name : String} (listed : (name, none) ∈ variants) :
    checkChoice inside stage variants (Reading.ofJson (.string name)) = .ok (.string name) := by
  have named : variant variants name = .ok none := by
    rw [variant, lookup_of_mem distinct listed]
  rw [Reading.ofJson, checkChoice, named]
  rfl

section Forms

variable {inside : Option (Inside Name)} (accepts : ∀ content ∈ inside, Accepts table content)
  (stage : Stage)

include accepts

theorem checkRecord_ofJson {slots : List (Slot Name)} (distinct : (slots.map Slot.name).Nodup)
    {members : List (String × Json)} (fields : FieldsOf (Canonical table) slots members) :
    checkRecord inside stage slots (Reading.ofJson (.object members)) =
      within (room inside) (depthOfMembers members + 1) members :=
  enter_bind fun content member =>
    recordOfMembers_ofMembers (accepts content member) stage distinct fields

theorem checkChoice_single {variants : List (String × Option (Shape Name))}
    (distinct : (variants.map Prod.fst).Nodup) {name : String} {shape : Shape Name}
    {content : Json} (listed : (name, some shape) ∈ variants)
    (fits : Canonical table shape content) :
    checkChoice inside stage variants (Reading.ofJson (.single name content)) =
      within (room inside) (content.depth + 1) (.single name content) := by
  have named : variant variants name = .ok (some shape) := by
    rw [variant, lookup_of_mem distinct listed]
  refine enter_bind fun entered member => ?_
  have checked : checkVariant entered stage variants (.string name) (Reading.ofJson content) =
      within entered.depth content.depth (.single name content) := by
    have inner := accepts entered member stage shape content fits
    change (variant variants name >>= _) = _
    rw [named]
    change (entered.check stage shape (Reading.ofJson content) >>= _) = _
    rw [inner]
    exact within_map rfl
  cases stage with
  | streamed =>
      change (checkVariant entered .streamed variants _ _ >>= _) = _
      rw [checked]
      exact within_map rfl
  | buffered => exact checked

theorem checkTuple_ofJson {shapes : List (Shape Name)} {items : List Json}
    (fit : List.Forall₂ (Canonical table) shapes items) :
    (enter inside >>= fun content =>
      checkTuple content stage shapes (Reading.ofItems items) .closed >>= fun values =>
        pure (Json.array values)) =
      within (room inside) (depthOfItems items + 1) (.array items) :=
  enter_bind fun content member => by
    rw [checkTuple_ofItems (accepts content member) stage fit]
    exact within_map rfl

end Forms

/-! ## Tagged records -/

mutual

/-- A document without faults is taken in when it is not too deep. -/
theorem whole_ofJson : ∀ (doc : Json) (limit : Nat),
    (Reading.ofJson doc).whole limit = within limit doc.depth ()
  | .null, 0 | .null, _ + 1 | .bool _, 0 | .bool _, _ + 1 | .integer _, 0 | .integer _, _ + 1
  | .decimal _, 0 | .decimal _, _ + 1 | .string _, 0 | .string _, _ + 1 | .array _, 0
  | .object _, 0 => rfl
  | .array items, limit + 1 => by
      rw [Reading.ofJson, Reading.whole, wholeItems_ofItems items limit, depth, within_succ]
      exact within_map rfl
  | .object members, limit + 1 => by
      rw [Reading.ofJson, Reading.whole, wholeMembers_ofMembers members limit, depth, within_succ]
      exact within_map rfl

theorem wholeItems_ofItems : ∀ (items : List Json) (limit : Nat),
    Reading.wholeItems limit (Reading.ofItems items) = within limit (depthOfItems items) ()
  | [], _ => (within_of_le (Nat.zero_le _)).symm
  | item :: rest, limit => by
      rw [Reading.ofItems, Reading.wholeItems, whole_ofJson item limit]
      exact within_bind (wholeItems_ofItems rest limit)

theorem wholeMembers_ofMembers : ∀ (members : List (String × Json)) (limit : Nat),
    Reading.wholeMembers limit (Reading.ofMembers members) =
      within limit (depthOfMembers members) ()
  | [], _ => (within_of_le (Nat.zero_le _)).symm
  | (key, value) :: rest, limit => by
      rw [Reading.ofMembers, Reading.wholeMembers, whole_ofJson value limit]
      exact within_bind (wholeMembers_ofMembers rest limit)

end

section Tagged

variable (inside : Inside Name) (stage : Stage) {variants : List (Kind Name)}
  {fallback : Option String}

/-- Members that are not the kind are taken in as they are. -/
theorem splitKind_ofMembers (kind : Kind Name) {members : List (String × Json)}
    (others : ∀ member ∈ members, member.1 ≠ "kind") :
    splitKind inside stage variants fallback (Reading.ofMembers members) (some kind) =
      within inside.depth (depthOfMembers members) (some kind, Reading.ofMembers members) := by
  induction members with
  | nil => exact (within_of_le (Nat.zero_le _)).symm
  | cons member rest ih =>
      obtain ⟨key, value⟩ := member
      have other : key ≠ "kind" := others (key, value) List.mem_cons_self
      rw [Reading.ofMembers, splitKind]
      change (if key = "kind" then _ else _) = _
      rw [if_neg other, whole_ofJson]
      refine within_bind ?_
      rw [ih fun member inside => others member (List.mem_cons_of_mem _ inside)]
      exact within_map rfl

/-- A tagged record is split into its kind and the rest of its members. -/
theorem splitKind_taggedObject {kind : Kind Name}
    (named : kindOf stage variants fallback (.string kind.1) = .ok kind)
    {members : List (String × Json)} (others : ∀ member ∈ members, member.1 ≠ "kind") :
    splitKind inside stage variants fallback
        (Reading.ofMembers (("kind", .string kind.1) :: members)) none =
      within inside.depth (depthOfMembers members) (some kind, Reading.ofMembers members) := by
  change (kindOf stage variants fallback (.string kind.1) >>= fun found =>
    splitKind inside stage variants fallback (Reading.ofMembers members) (some found)) = _
  rw [named]
  exact splitKind_ofMembers inside stage kind others

theorem kindOf_listed (distinct : (variants.map Prod.fst).Nodup) {kind : Kind Name}
    (listed : kind ∈ variants) :
    kindOf stage variants fallback (.string kind.1) = .ok kind := by
  rw [kindOf, find?_of_mem distinct listed]

theorem kindOf_unlisted {name : String} (absent : name ∉ variants.map Prod.fst) :
    kindOf stage variants (some name) (.string name) = .ok (name, []) := by
  have none : (variants.find? fun other => other.1 == name) = none := by
    rw [List.find?_eq_none]
    exact fun kind listed same => absent (beq_iff_eq.mp same ▸ List.mem_map_of_mem listed)
  rw [kindOf, none]
  rfl

end Tagged

/-- A tagged record whose fields are accepted is accepted itself. -/
theorem checkTagged_taggedObject {inside : Option (Inside Name)}
    (accepts : ∀ content ∈ inside, Accepts table content) (stage : Stage)
    {variants : List (Kind Name)} {fallback : Option String} {kind : Kind Name}
    (named : kindOf stage variants fallback (.string kind.1) = .ok kind)
    (distinct : ("kind" :: kind.2.map Slot.name).Nodup) {members : List (String × Json)}
    (fields : FieldsOf (Canonical table) kind.2 members) :
    checkTagged inside stage variants fallback (Reading.ofJson (taggedObject kind members)) =
      within (room inside) (taggedObject kind members).depth (taggedObject kind members) := by
  rw [List.nodup_cons] at distinct
  have others : ∀ member ∈ members, member.1 ≠ "kind" := fun member inside same =>
    distinct.1 (same ▸ fields.name_mem member inside)
  have level : (taggedObject kind members).depth = depthOfMembers members + 1 := by
    simp [taggedObject, depth, depthOfMembers]
  rw [level]
  refine enter_bind fun content member => ?_
  have split := splitKind_taggedObject content stage named others
  have taken := recordOfMembers_ofMembers (accepts content member) .buffered distinct.2 fields
  have twice : within content.depth (depthOfMembers members) (taggedObject kind members) =
      within content.depth (max (depthOfMembers members) (depthOfMembers members))
        (taggedObject kind members) := by rw [Nat.max_self]
  rw [twice]
  change (splitKind content stage variants fallback
    (Reading.ofMembers (("kind", .string kind.1) :: members)) none >>= _) = _
  rw [split]
  refine within_bind ?_
  change (recordOfMembers content .buffered kind.2 (Reading.ofMembers members) .closed >>= _) = _
  rw [taken]
  exact within_map rfl

/-! ## Shapes -/

section Shapes

variable {inside : Option (Inside Name)} (accepts : ∀ content ∈ inside, Accepts table content)
  (stage : Stage)

include accepts

/-- A canonical document of a form is accepted as itself, up to a depth. -/
theorem checkForm_ofJson {form : Form Name} (distinct : form.Distinct) {doc : Json}
    (stands : FormOf (Canonical table) form doc) :
    checkForm inside stage form (Reading.ofJson doc) = within (room inside) doc.depth doc := by
  cases stands with
  | record fields =>
      rw [checkForm, checkRecord_ofJson accepts stage distinct fields]
      exact within_map rfl
  | @stamped field stamp slots members fields stands =>
      have stays : checkStamp field stamp members = .ok (.object members) := by
        rw [checkStamp, stands]
        exact if_pos rfl
      rw [checkForm, checkRecord_ofJson accepts stage distinct fields]
      exact within_map stays
  | unit listed =>
      rw [checkForm, checkChoice_string inside stage distinct listed]
      exact (within_of_le (Nat.zero_le _)).symm
  | @variant variants name shape content listed fits =>
      have level : (Json.single name content).depth = content.depth + 1 := by
        simp [Json.single, depth, depthOfMembers]
      rw [checkForm, checkChoice_single accepts stage distinct listed fits, level]
  | tuple fit => exact checkTuple_ofJson accepts stage fit
  | tagged listed fields =>
      exact checkTagged_taggedObject accepts stage (kindOf_listed stage distinct.1 listed)
        (distinct.2.2 _ listed) fields
  | unknown =>
      exact checkTagged_taggedObject accepts stage (kindOf_unlisted stage (distinct.2.1 _ rfl))
        (by simp) .none

theorem checkShape_ofJson (distinct : ∀ name, (table name).Distinct) {shape : Shape Name}
    {doc : Json} (canonical : Canonical table shape doc) :
    checkShape table inside stage shape (Reading.ofJson doc) =
      within (room inside) doc.depth doc := by
  cases canonical.parts with
  | text content | flag truth => exact (within_of_le (Nat.zero_le _)).symm
  | natural positive small =>
      rw [Reading.ofJson, checkShape, if_pos positive]
      exact (within_of_le (Nat.zero_le _)).symm
  | integer fits =>
      rw [Reading.ofJson, checkShape, if_pos fits]
      exact (within_of_le (Nat.zero_le _)).symm
  | @list shape items fit =>
      have entered : (enter inside >>= fun content =>
          checkItems content stage shape (Reading.ofItems items) >>= fun values =>
            pure (Json.array values)) =
          within (room inside) (depthOfItems items + 1) (.array items) :=
        enter_bind fun content member => by
          rw [checkItems_ofItems (accepts content member) stage fit]
          exact within_map rfl
      exact entered
  | @named name doc form => exact checkForm_ofJson accepts stage (distinct name) form

end Shapes

/-- A canonical document is accepted as itself when it is not too deep, and refused for its depth
otherwise. -/
theorem conform_ofJson (distinct : ∀ name, (table name).Distinct) :
    ∀ (limit : Nat) (stage : Stage) {shape : Shape Name} {doc : Json},
      Canonical table shape doc →
        conform table limit stage shape (Reading.ofJson doc) = within limit doc.depth doc
  | 0, stage, _, _, canonical =>
      @checkShape_ofJson _ _ none (fun _ none => by cases none) stage distinct _ _ canonical
  | limit + 1, stage, _, _, canonical => by
      refine checkShape_ofJson (fun content same => ?_) stage distinct canonical
      cases same
      exact fun stage shape value inner => conform_ofJson distinct limit stage inner

end CollectionSchema.Json
