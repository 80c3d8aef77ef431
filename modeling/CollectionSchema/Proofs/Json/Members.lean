import CollectionSchema.Proofs.Json.Faultless

/-!
# The values under each name

When a document has no faults, the order of its members matters little.  An object
gives a field once or not at all, and a kind exactly once; what else it holds is passed
over, wherever it stands.  So whether an object is accepted, and what it gives, follows
from the values under each name alone.
-/

set_option autoImplicit false

namespace CollectionSchema.Json

variable {Name : Type}

/-! ## The values under a name -/

/-- The values of the members of an object that have a name. -/
def named (name : String) (members : List (String × Json)) : List Json :=
  members.filterMap fun member => if member.1 = name then some member.2 else none

@[simp] theorem named_nil (name : String) : named name [] = [] := rfl

@[simp] theorem named_cons_self (name : String) (value : Json) (members : List (String × Json)) :
    named name ((name, value) :: members) = value :: named name members := by
  simp [named]

theorem named_cons_of_ne {name key : String} (other : key ≠ name) (value : Json)
    (members : List (String × Json)) :
    named name ((key, value) :: members) = named name members := by
  simp [named, other]

@[simp] theorem named_append (name : String) (front back : List (String × Json)) :
    named name (front ++ back) = named name front ++ named name back :=
  List.filterMap_append

theorem named_eq_nil {name : String} {members : List (String × Json)} :
    named name members = [] ↔ ∀ member ∈ members, member.1 ≠ name := by
  simp [named, List.filterMap_eq_nil_iff]

theorem named_perm {members others : List (String × Json)} (same : members.Perm others)
    (name : String) : (named name members).Perm (named name others) :=
  same.filterMap _

/-- Where there is at most one value under a name, the order of the members has no influence. -/
theorem named_eq_of_perm {members others : List (String × Json)} (same : members.Perm others)
    {name : String} (single : (named name members).length ≤ 1) :
    named name members = named name others := by
  have moved := named_perm same name
  rcases values : named name members with _ | ⟨value, _ | ⟨next, rest⟩⟩
  · rw [values] at moved
    exact moved.nil_eq
  · rw [values] at moved
    exact (List.perm_singleton.mp moved.symm).symm
  · rw [values] at single
    exact absurd single (by simp)

theorem mem_of_mem_named {name : String} {members : List (String × Json)} {value : Json}
    (member : value ∈ named name members) : (name, value) ∈ members := by
  obtain ⟨⟨key, other⟩, inside, found⟩ := List.mem_filterMap.mp member
  split at found
  · rename_i same
    cases found
    exact same ▸ inside
  · cases found

theorem member?_ofMembers (name : String) (members : List (String × Json)) :
    Reading.member? name (Reading.ofMembers members) =
      (named name members).head?.map Reading.ofJson := by
  induction members with
  | nil => rfl
  | cons first rest kept =>
      obtain ⟨key, value⟩ := first
      rw [Reading.ofMembers, Reading.member?]
      by_cases same : key = name
      · subst same
        rw [if_pos rfl, named_cons_self]
        rfl
      · rw [if_neg same, named_cons_of_ne same]
        exact kept

/-- The members of an object without its kind. -/
def untagged (members : List (String × Json)) : List (String × Json) :=
  members.filter fun member => member.1 ≠ "kind"

theorem untagged_cons_kind (value : Json) (members : List (String × Json)) :
    untagged (("kind", value) :: members) = untagged members := by
  simp [untagged]

theorem untagged_cons_of_ne {key : String} (other : key ≠ "kind") (value : Json)
    (members : List (String × Json)) :
    untagged ((key, value) :: members) = (key, value) :: untagged members := by
  simp [untagged, other]

theorem untagged_eq_self {members : List (String × Json)} (none : named "kind" members = []) :
    untagged members = members := by
  simpa [untagged, List.filter_eq_self] using named_eq_nil.mp none

theorem named_untagged {name : String} (other : name ≠ "kind") (members : List (String × Json)) :
    named name (untagged members) = named name members := by
  induction members with
  | nil => rfl
  | cons member rest ih =>
      obtain ⟨key, value⟩ := member
      by_cases kind : key = "kind"
      · subst kind
        rw [untagged_cons_kind, named_cons_of_ne other.symm, ih]
      · rw [untagged_cons_of_ne kind, ← List.singleton_append, named_append, ih, ← named_append,
          List.singleton_append]

/-! ## Records -/

section Records

variable {inside : Inside Name} {stage : Stage} {slots : List (Slot Name)}

/-- A member that belongs to no field has no influence. -/
theorem gather_of_strange {name : String} (strange : ∀ slot ∈ slots, slot.name ≠ name)
    (value : Json) (members : List (Reading × Reading)) (found : List (String × Json)) :
    gather inside stage slots ((.string name, Reading.ofJson value) :: members) found =
      gather inside stage slots members found := by
  have unlisted : (slots.find? fun slot => slot.name == name) = none := by
    rw [List.find?_eq_none]
    exact fun slot listed same => strange slot listed (beq_iff_eq.mp same)
  rw [gather]
  simp only [Reading.keyText, bind, Except.bind, unlisted, pass_ofJson]

theorem any_eq_false {name : String} {found : List (String × Json)} :
    (found.any fun field => field.1 == name) = false ↔ named name found = [] := by
  rw [named_eq_nil, List.any_eq_false]
  exact forall₂_congr fun field _ => not_congr beq_iff_eq

/-- A member that belongs to a field is checked, unless the field was met before. -/
theorem gather_of_listed (distinct : (slots.map Slot.name).Nodup) {slot : Slot Name}
    (listed : slot ∈ slots) (value : Json) (members : List (Reading × Reading))
    {found : List (String × Json)} (fresh : named slot.name found = []) :
    gather inside stage slots ((.string slot.name, Reading.ofJson value) :: members) found =
      checkSlot inside stage slot (Reading.ofJson value) >>= fun checked =>
        gather inside stage slots members (found ++ [(slot.name, checked)]) := by
  rw [gather]
  simp only [Reading.keyText, bind, Except.bind, find?_of_mem distinct listed,
    any_eq_false.mpr fresh, Bool.false_eq_true, if_false]

/-- A field that was met before is an error. -/
theorem fresh_of_gather (distinct : (slots.map Slot.name).Nodup) {slot : Slot Name}
    (listed : slot ∈ slots) {value : Json} {members : List (Reading × Reading)}
    {found after : List (String × Json)}
    (done : gather inside stage slots
      ((.string slot.name, Reading.ofJson value) :: members) found = .ok after) :
    named slot.name found = [] := by
  rw [gather] at done
  simp only [Reading.keyText, bind, Except.bind, find?_of_mem distinct listed] at done
  split at done
  · cases done
  · rename_i fresh
    exact any_eq_false.mp (eq_false_of_ne_true fresh)

theorem listed_or_strange (slots : List (Slot Name)) (name : String) :
    (∃ slot ∈ slots, slot.name = name) ∨ ∀ slot ∈ slots, slot.name ≠ name := by
  by_cases listed : ∃ slot ∈ slots, slot.name = name
  · exact .inl listed
  · exact .inr fun slot member same => listed ⟨slot, member, same⟩

/-- A field is given at most once. -/
theorem single_of_gather (distinct : (slots.map Slot.name).Nodup) {slot : Slot Name}
    (listed : slot ∈ slots) :
    ∀ {members : List (String × Json)} {before after : List (String × Json)},
      gather inside stage slots (Reading.ofMembers members) before = .ok after →
        (named slot.name before).length ≤ 1 →
          (named slot.name before).length + (named slot.name members).length ≤ 1
  | [], _, _, _, single => single
  | (key, value) :: rest, before, after, done, single => by
      rw [Reading.ofMembers] at done
      rcases listed_or_strange slots key with ⟨other, member, rfl⟩ | strange
      · have fresh := fresh_of_gather distinct member done
        rw [gather_of_listed distinct member value _ fresh] at done
        obtain ⟨doc, -, behind⟩ := ok_of_bind done
        by_cases same : other.name = slot.name
        · have later := single_of_gather distinct listed behind (by simp [← same, fresh])
          simp only [← same, fresh, named_append, named_cons_self, named_nil, List.nil_append,
            List.length_cons, List.length_nil] at later ⊢
          omega
        · have later := single_of_gather distinct listed behind
            (by simpa [named_cons_of_ne same] using single)
          simpa [named_cons_of_ne same] using later
      · rw [gather_of_strange strange] at done
        rw [named_cons_of_ne (strange slot listed).symm]
        exact single_of_gather distinct listed done single

/-- Members are gathered when each field is given at most once and its value is accepted. -/
theorem exists_gather (distinct : (slots.map Slot.name).Nodup) :
    ∀ {members before : List (String × Json)},
      (∀ slot ∈ slots,
        (named slot.name before).length + (named slot.name members).length ≤ 1) →
      (∀ slot ∈ slots, ∀ value ∈ named slot.name members,
        ∃ doc, checkSlot inside stage slot (Reading.ofJson value) = .ok doc) →
      ∃ after, gather inside stage slots (Reading.ofMembers members) before = .ok after
  | [], before, _, _ => ⟨before, rfl⟩
  | (key, value) :: rest, before, single, accepted => by
      rw [Reading.ofMembers]
      rcases listed_or_strange slots key with ⟨slot, member, rfl⟩ | strange
      · have alone := single slot member
        rw [named_cons_self, List.length_cons] at alone
        have fresh : named slot.name before = [] := List.eq_nil_of_length_eq_zero (by omega)
        obtain ⟨doc, checked⟩ := accepted slot member value (by simp)
        rw [gather_of_listed distinct member value _ fresh, checked]
        refine exists_gather distinct ?_ ?_
        · intro next listed
          have either := single next listed
          by_cases same : slot.name = next.name
          · rw [← same] at either ⊢
            simp only [named_append, named_cons_self, named_nil, List.length_append,
              List.length_cons, List.length_nil] at either ⊢
            omega
          · simpa [named_cons_of_ne same] using either
        · intro next listed other inside
          refine accepted next listed other ?_
          by_cases same : slot.name = next.name
          · rw [same, named_cons_self]
            exact List.mem_cons_of_mem _ inside
          · rwa [named_cons_of_ne same]
      · rw [gather_of_strange strange]
        refine exists_gather distinct ?_ ?_
        · intro slot listed
          have either := single slot listed
          rwa [named_cons_of_ne (strange slot listed).symm] at either
        · intro slot listed other inside
          refine accepted slot listed other ?_
          rwa [named_cons_of_ne (strange slot listed).symm]

theorem arrange_congr {found others : List (String × Json)} :
    ∀ {slots : List (Slot Name)},
      (∀ slot ∈ slots, found.lookup slot.name = others.lookup slot.name) →
        arrange found slots = arrange others slots
  | [], _ => rfl
  | slot :: rest, agree => by
      rw [arrange, arrange, agree slot List.mem_cons_self,
        arrange_congr fun next member => agree next (List.mem_cons_of_mem slot member)]

end Records

/-- That a value is accepted for a field whenever another one is, and gives the same. -/
def SlotCarries (inside other : Inside Name) (stage : Stage) (slot : Slot Name)
    (value changed : Json) : Prop :=
  ∀ doc, checkSlot inside stage slot (Reading.ofJson value) = .ok doc →
    checkSlot other stage slot (Reading.ofJson changed) = .ok doc

/-- A record gives the same when each of its fields does. -/
theorem recordOfMembers_carried {inside other : Inside Name} {stage : Stage}
    {slots : List (Slot Name)} (distinct : (slots.map Slot.name).Nodup)
    {members changed : List (String × Json)}
    (carried : ∀ slot ∈ slots, (named slot.name members).length ≤ 1 →
      List.Forall₂ (SlotCarries inside other stage slot) (named slot.name members)
        (named slot.name changed))
    {out : List (String × Json)}
    (done : recordOfMembers inside stage slots (Reading.ofMembers members) .closed = .ok out) :
    recordOfMembers other stage slots (Reading.ofMembers changed) .closed = .ok out := by
  obtain ⟨found, gathered, arranged⟩ := ok_of_bind done
  have single : ∀ slot ∈ slots, (named slot.name members).length ≤ 1 := by
    intro slot listed
    have alone := single_of_gather distinct listed gathered (Nat.zero_le 1)
    simpa using alone
  have gives : ∀ slot ∈ slots, Found inside stage slot
      ((named slot.name members).head?.map Reading.ofJson) none (found.lookup slot.name) := by
    intro slot listed
    rw [← member?_ofMembers]
    exact found_of_gather distinct listed gathered
  have values : ∀ slot ∈ slots, (named slot.name members = [] ∧ named slot.name changed = [] ∧
      found.lookup slot.name = none) ∨ ∃ value value' doc, named slot.name members = [value] ∧
        named slot.name changed = [value'] ∧ found.lookup slot.name = some doc ∧
        checkSlot other stage slot (Reading.ofJson value') = .ok doc := by
    intro slot listed
    have alone := single slot listed
    have each := carried slot listed alone
    have known := gives slot listed
    rcases before : named slot.name members with _ | ⟨value, _ | ⟨next, rest⟩⟩
    · rw [before] at each known
      exact .inl ⟨rfl, List.forall₂_nil_left_iff.mp each, known⟩
    · rw [before] at each known
      obtain ⟨value', _, carries, none, after⟩ := List.forall₂_cons_left_iff.mp each
      rw [List.forall₂_nil_left_iff.mp none] at after
      obtain ⟨doc, checked, looked⟩ := known
      exact .inr ⟨value, value', doc, rfl, after, looked, carries doc checked⟩
    · rw [before] at alone
      exact absurd alone (by simp)
  obtain ⟨others, again⟩ : ∃ others,
      gather other stage slots (Reading.ofMembers changed) [] = .ok others := by
    refine exists_gather distinct ?_ ?_
    · intro slot listed
      rcases values slot listed with ⟨-, after, -⟩ | ⟨_, _, _, -, after, -⟩ <;> simp [after]
    · intro slot listed value inside
      rcases values slot listed with ⟨-, after, -⟩ | ⟨_, value', doc, -, after, -, checked⟩
      · rw [after] at inside
        cases inside
      · rw [after] at inside
        exact ⟨doc, List.mem_singleton.mp inside ▸ checked⟩
  have same : ∀ slot ∈ slots, found.lookup slot.name = others.lookup slot.name := by
    intro slot listed
    have known := found_of_gather distinct listed again
    rw [member?_ofMembers] at known
    rcases values slot listed with ⟨-, after, looked⟩ | ⟨_, value', doc, -, after, looked, checked⟩
    · rw [after] at known
      exact looked.trans known.symm
    · rw [after] at known
      obtain ⟨_, again, behind⟩ := known
      rw [checked] at again
      cases again
      exact looked.trans behind.symm
  rw [recordOfMembers, again]
  change arrange others slots = .ok out
  rw [← arrange_congr same]
  exact arranged

/-! ## Kinds -/

theorem depthOfMembers_le {members : List (String × Json)} {limit : Nat} :
    depthOfMembers members ≤ limit ↔ ∀ member ∈ members, member.2.depth ≤ limit := by
  induction members with
  | nil => exact ⟨fun _ => nofun, fun _ => Nat.zero_le _⟩
  | cons member rest ih => rw [depthOfMembers, Nat.max_le, ih, List.forall_mem_cons]

section Kinds

variable {inside : Inside Name} {stage : Stage} {variants : List (Kind Name)}
  {fallback : Option String}

/-- Behind the kind there is no other, and all members are kept. -/
theorem of_splitKind_some :
    ∀ {members : List (String × Json)} {kind : Kind Name}
      {outcome : Option (Kind Name) × List (Reading × Reading)},
      splitKind inside stage variants fallback (Reading.ofMembers members) (some kind) =
          .ok outcome →
        named "kind" members = [] ∧ outcome = (some kind, Reading.ofMembers members)
  | [], _, _, done => by
      cases done
      exact ⟨rfl, rfl⟩
  | (key, value) :: rest, kind, outcome, done => by
      rw [Reading.ofMembers, splitKind] at done
      obtain ⟨_, ⟨⟩, entry⟩ := ok_of_bind done
      split at entry
      · cases entry
      · rename_i other
        obtain ⟨_, -, behind⟩ := ok_of_bind entry
        obtain ⟨_, split, same⟩ := ok_of_bind behind
        obtain ⟨none, rfl⟩ := of_splitKind_some split
        cases same
        exact ⟨by rw [named_cons_of_ne other, none], rfl⟩

/-- An object that is split has one kind, and all of its other members are kept. -/
theorem of_splitKind :
    ∀ {members : List (String × Json)} {kind : Kind Name} {others : List (Reading × Reading)},
      splitKind inside stage variants fallback (Reading.ofMembers members) none =
          .ok (some kind, others) →
        ∃ tag, named "kind" members = [tag] ∧
          kindOf stage variants fallback (Reading.ofJson tag) = .ok kind ∧
          others = Reading.ofMembers (untagged members)
  | [], _, _, done => by cases done
  | (key, value) :: rest, kind, others, done => by
      rw [Reading.ofMembers, splitKind] at done
      obtain ⟨_, ⟨⟩, entry⟩ := ok_of_bind done
      by_cases same : key = "kind"
      · rw [if_pos same] at entry
        obtain ⟨found, stands, split⟩ := ok_of_bind entry
        obtain ⟨none, outcome⟩ := of_splitKind_some split
        cases outcome
        refine ⟨value, ?_, stands, ?_⟩
        · rw [same, named_cons_self, none]
        · rw [same, untagged_cons_kind, untagged_eq_self none]
      · rw [if_neg same] at entry
        obtain ⟨_, -, behind⟩ := ok_of_bind entry
        obtain ⟨⟨found, behind⟩, split, outcome⟩ := ok_of_bind behind
        cases outcome
        obtain ⟨tag, single, stands, rfl⟩ := of_splitKind split
        refine ⟨tag, ?_, stands, ?_⟩
        · rw [named_cons_of_ne same, single]
        · rw [untagged_cons_of_ne same, Reading.ofMembers]

/-- An object with one kind is split, unless something in it is too deep. -/
theorem splitKind_of_named :
    ∀ {members : List (String × Json)} {kind : Kind Name} {tag : Json},
      named "kind" members = [tag] →
        kindOf stage variants fallback (Reading.ofJson tag) = .ok kind →
        depthOfMembers members ≤ inside.depth →
          splitKind inside stage variants fallback (Reading.ofMembers members) none =
            .ok (some kind, Reading.ofMembers (untagged members))
  | [], _, _, single, _, _ => by cases single
  | (key, value) :: rest, kind, tag, single, stands, shallow => by
      rw [depthOfMembers, Nat.max_le] at shallow
      by_cases same : key = "kind"
      · rw [same, named_cons_self] at single
        obtain ⟨rfl, none⟩ := List.cons.inj single
        rw [same, untagged_cons_kind, untagged_eq_self none]
        change (kindOf stage variants fallback (Reading.ofJson value) >>= fun found =>
          splitKind inside stage variants fallback (Reading.ofMembers rest) (some found)) = _
        rw [stands]
        exact (splitKind_ofMembers inside stage kind (named_eq_nil.mp none)).trans
          (within_of_le shallow.2)
      · rw [named_cons_of_ne same] at single
        have behind := splitKind_of_named single stands shallow.2
        rw [untagged_cons_of_ne same, Reading.ofMembers, splitKind]
        change (if key = "kind" then _ else _) = _
        rw [if_neg same, whole_ofJson, within_of_le shallow.1, behind]
        rfl

/-- A tagged record that is accepted as an object has one kind, and the fields of this kind. -/
theorem of_checkTagged_object {members : List (String × Json)} {out : Json}
    (done : checkTagged (some inside) stage variants fallback
      (Reading.ofJson (.object members)) = .ok out) :
    ∃ tag kind fields, named "kind" members = [tag] ∧
      kindOf stage variants fallback (Reading.ofJson tag) = .ok kind ∧
      recordOfMembers inside .buffered kind.2 (Reading.ofMembers (untagged members)) .closed =
        .ok fields ∧
      out = taggedObject kind fields := by
  obtain ⟨_, ⟨⟩, entered⟩ := ok_of_bind done
  obtain ⟨⟨found, rest⟩, split, behind⟩ := ok_of_bind entered
  obtain ⟨_, -, taken⟩ := ok_of_bind behind
  cases found with
  | none => cases taken
  | some kind =>
      obtain ⟨fields, records, made⟩ := ok_of_bind taken
      obtain ⟨tag, single, stands, rfl⟩ := of_splitKind split
      cases made
      exact ⟨tag, kind, fields, single, stands, records, rfl⟩

theorem checkTagged_object {members : List (String × Json)} {tag : Json} {kind : Kind Name}
    {fields : List (String × Json)} (single : named "kind" members = [tag])
    (stands : kindOf stage variants fallback (Reading.ofJson tag) = .ok kind)
    (shallow : depthOfMembers members ≤ inside.depth)
    (records : recordOfMembers inside .buffered kind.2 (Reading.ofMembers (untagged members))
      .closed = .ok fields) :
    checkTagged (some inside) stage variants fallback (Reading.ofJson (.object members)) =
      .ok (taggedObject kind fields) := by
  change (splitKind inside stage variants fallback (Reading.ofMembers members) none >>= _) = _
  rw [splitKind_of_named single stands shallow]
  change (recordOfMembers inside .buffered kind.2 _ .closed >>= _) = _
  rw [records]
  rfl

end Kinds

end CollectionSchema.Json
