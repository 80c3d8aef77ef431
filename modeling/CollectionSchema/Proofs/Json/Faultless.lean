import CollectionSchema.Proofs.Json.Inversion

/-!
# Readings without faults

What was taken in as a whole has no faults, and neither has a list of tagged records
that was accepted, for each of these is taken in as a whole.  So such a list is the
reading of a document, and nothing is left of the text that it was read from.
-/

set_option autoImplicit false

namespace CollectionSchema.Json

variable {Name : Type}

/-! ## Faults are told -/

mutual

/-- What was taken in as a whole has no faults. -/
theorem exists_of_whole : ∀ {reading : Reading} {limit : Nat}, reading.whole limit = .ok () →
    ∃ doc, reading = Reading.ofJson doc
  | .null, _, _ => ⟨.null, rfl⟩
  | .bool truth, _, _ => ⟨.bool truth, rfl⟩
  | .integer value, _, _ => ⟨.integer value, rfl⟩
  | .decimal written, _, _ => ⟨.decimal written, rfl⟩
  | .string text, _, _ => ⟨.string text, rfl⟩
  | .array items closing, 0, done => by cases done
  | .object members closing, 0, done => by cases done
  | .fault head decoding skipping, 0, done => by cases done
  | .fault head decoding skipping, _ + 1, done => by cases done
  | .array items closing, limit + 1, done => by
      rw [Reading.whole] at done
      obtain ⟨_, inner, closed⟩ := ok_of_bind done
      obtain ⟨docs, rfl⟩ := exists_of_wholeItems inner
      obtain rfl := eq_closed_of_check closed
      exact ⟨.array docs, rfl⟩
  | .object members closing, limit + 1, done => by
      rw [Reading.whole] at done
      obtain ⟨_, inner, closed⟩ := ok_of_bind done
      obtain ⟨docs, rfl⟩ := exists_of_wholeMembers inner
      obtain rfl := eq_closed_of_check closed
      exact ⟨.object docs, rfl⟩

theorem exists_of_wholeItems : ∀ {items : List Reading} {limit : Nat},
    Reading.wholeItems limit items = .ok () → ∃ docs, items = Reading.ofItems docs
  | [], _, _ => ⟨[], rfl⟩
  | item :: rest, limit, done => by
      rw [Reading.wholeItems] at done
      obtain ⟨_, first, others⟩ := ok_of_bind done
      obtain ⟨doc, rfl⟩ := exists_of_whole first
      obtain ⟨docs, rfl⟩ := exists_of_wholeItems others
      exact ⟨doc :: docs, rfl⟩

theorem exists_of_wholeMembers : ∀ {members : List (Reading × Reading)} {limit : Nat},
    Reading.wholeMembers limit members = .ok () → ∃ docs, members = Reading.ofMembers docs
  | [], _, _ => ⟨[], rfl⟩
  | (key, value) :: rest, limit, done => by
      rw [Reading.wholeMembers] at done
      obtain ⟨name, text, behind⟩ := ok_of_bind done
      obtain ⟨_, first, others⟩ := ok_of_bind behind
      obtain rfl := eq_string_of_keyText text
      obtain ⟨doc, rfl⟩ := exists_of_whole first
      obtain ⟨docs, rfl⟩ := exists_of_wholeMembers others
      exact ⟨(name, doc) :: docs, rfl⟩

end

section Tagged

variable {inside : Inside Name} {stage : Stage} {variants : List (Kind Name)}
  {fallback : Option String}

/-- What names a kind is a word or a number. -/
inductive Reading.IsTag : Reading → Prop
  | word (name : String) : IsTag (.string name)
  | number (value : Int) : IsTag (.integer value)

theorem isTag_of_kindOf {tag : Reading} {kind : Kind Name}
    (done : kindOf stage variants fallback tag = .ok kind) : tag.IsTag := by
  cases tag with
  | string name => exact .word name
  | integer value => exact .number value
  | null | bool | decimal | array | object | fault => cases done

theorem Reading.IsTag.exists_ofJson {tag : Reading} (isTag : tag.IsTag) :
    ∃ doc, tag = Reading.ofJson doc := by
  cases isTag with
  | word name => exact ⟨.string name, rfl⟩
  | number value => exact ⟨.integer value, rfl⟩

theorem exists_of_splitKind : ∀ {members : List (Reading × Reading)} {before : Option (Kind Name)}
    {outcome : Option (Kind Name) × List (Reading × Reading)},
      splitKind inside stage variants fallback members before = .ok outcome →
        ∃ docs, members = Reading.ofMembers docs
  | [], _, _, _ => ⟨[], rfl⟩
  | (key, value) :: members, before, _, done => by
      rw [splitKind] at done
      obtain ⟨name, text, done⟩ := ok_of_bind done
      obtain rfl := eq_string_of_keyText text
      split at done
      · split at done
        · cases done
        obtain ⟨kind, named, others⟩ := ok_of_bind done
        obtain ⟨tag, rfl⟩ := (isTag_of_kindOf named).exists_ofJson
        obtain ⟨docs, rfl⟩ := exists_of_splitKind others
        exact ⟨(name, tag) :: docs, rfl⟩
      · obtain ⟨_, taken, done⟩ := ok_of_bind done
        obtain ⟨_, others, _⟩ := ok_of_bind done
        obtain ⟨doc, rfl⟩ := exists_of_whole taken
        obtain ⟨docs, rfl⟩ := exists_of_splitKind others
        exact ⟨(name, doc) :: docs, rfl⟩

theorem exists_of_checkTagged {content : Option (Inside Name)} {reading : Reading} {out : Json}
    (done : checkTagged content stage variants fallback reading = .ok out) :
    ∃ doc, reading = Reading.ofJson doc := by
  cases reading with
  | object members closing =>
      obtain ⟨_, -, inner⟩ := ok_of_bind done
      obtain ⟨_, split, inner⟩ := ok_of_bind inner
      obtain ⟨_, closed, -⟩ := ok_of_bind inner
      obtain rfl := eq_closed_of_check closed
      obtain ⟨docs, rfl⟩ := exists_of_splitKind split
      exact ⟨.object docs, rfl⟩
  | array items closing =>
      cases items with
      | nil =>
          obtain ⟨_, -, inner⟩ := ok_of_bind done
          obtain ⟨_, -, inner⟩ := ok_of_bind inner
          cases inner
      | cons first others =>
          obtain ⟨_, -, inner⟩ := ok_of_bind done
          obtain ⟨_, named, inner⟩ := ok_of_bind inner
          obtain ⟨_, taken, inner⟩ := ok_of_bind inner
          obtain ⟨_, closed, -⟩ := ok_of_bind inner
          obtain rfl := eq_closed_of_check closed
          obtain ⟨tag, rfl⟩ := (isTag_of_kindOf named).exists_ofJson
          obtain ⟨docs, rfl⟩ := exists_of_wholeItems taken
          exact ⟨.array (tag :: docs), rfl⟩
  | null | bool | integer | decimal | string | fault => cases done

theorem checkForm_of_conform {table : Name → Form Name} {limit : Nat} {name : Name}
    {reading : Reading} {out : Json}
    (done : conform table limit stage (.named name) reading = .ok out) :
    ∃ content, checkForm content stage (table name) reading = .ok out := by
  cases limit with
  | zero => exact ⟨_, done⟩
  | succ limit => exact ⟨_, done⟩

theorem exists_of_checkItems {table : Name → Form Name} {limit : Nat} {name : Name}
    (tagged : table name = .tagged variants fallback) :
    ∀ {items : List Reading} {out : List Json},
      checkItems ⟨limit, conform table limit⟩ stage (.named name) items = .ok out →
        ∃ docs, items = Reading.ofItems docs
  | [], _, _ => ⟨[], rfl⟩
  | item :: rest, _, done => by
      obtain ⟨_, first, behind⟩ := ok_of_bind done
      obtain ⟨_, others, -⟩ := ok_of_bind behind
      obtain ⟨content, checked⟩ := checkForm_of_conform first
      rw [tagged] at checked
      obtain ⟨doc, rfl⟩ := exists_of_checkTagged checked
      obtain ⟨docs, rfl⟩ := exists_of_checkItems tagged others
      exact ⟨doc :: docs, rfl⟩

/-- What was accepted as a list of tagged records has no faults. -/
theorem exists_of_conform_list {table : Name → Form Name} {limit : Nat} {name : Name}
    (tagged : table name = .tagged variants fallback) {reading : Reading} {out : Json}
    (done : conform table limit stage (.list (.named name)) reading = .ok out) :
    ∃ doc, reading = Reading.ofJson doc := by
  cases reading with
  | array items closing =>
      cases limit with
      | zero => cases done
      | succ limit =>
          obtain ⟨_, ⟨⟩, inner⟩ := ok_of_bind done
          obtain ⟨_, taken, inner⟩ := ok_of_bind inner
          obtain ⟨_, closed, -⟩ := ok_of_bind inner
          obtain rfl := eq_closed_of_check closed
          obtain ⟨docs, rfl⟩ := exists_of_checkItems tagged taken
          exact ⟨.array docs, rfl⟩
  | null | bool | integer | decimal | string | object | fault => cases limit <;> cases done

end Tagged

/-! ## Passing over documents -/

mutual

/-- A document without faults is passed over. -/
theorem pass_ofJson : ∀ doc : Json, (Reading.ofJson doc).pass = .ok ()
  | .null | .bool _ | .integer _ | .decimal _ | .string _ => rfl
  | .array items => by
      rw [Reading.ofJson, Reading.pass, passItems_ofItems items]
      rfl
  | .object members => by
      rw [Reading.ofJson, Reading.pass, passMembers_ofMembers members]
      rfl

theorem passItems_ofItems : ∀ items : List Json,
    Reading.passItems (Reading.ofItems items) = .ok ()
  | [] => rfl
  | item :: rest => by
      rw [Reading.ofItems, Reading.passItems, pass_ofJson item]
      exact passItems_ofItems rest

theorem passMembers_ofMembers : ∀ members : List (String × Json),
    Reading.passMembers (Reading.ofMembers members) = .ok ()
  | [] => rfl
  | (key, value) :: rest => by
      rw [Reading.ofMembers, Reading.passMembers, pass_ofJson value]
      exact passMembers_ofMembers rest

end

end CollectionSchema.Json
