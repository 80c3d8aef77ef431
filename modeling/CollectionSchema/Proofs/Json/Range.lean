import CollectionSchema.Proofs.Json.Numeral

/-!
# Integers that are read are in range

A number is read as an integer only when it is one in 64 bits, so every integer in a
reading of a text is in range, however much of the text can be read.
-/

set_option autoImplicit false

namespace CollectionSchema.Json

namespace Reading

mutual

/-- Whether all integers of a reading are in range. -/
def InRange : Reading → Prop
  | .integer value => Json.InRange value
  | .array items _ => ItemsInRange items
  | .object members _ => MembersInRange members
  | _ => True

/-- Whether all integers of the items of an array are in range. -/
def ItemsInRange : List Reading → Prop
  | [] => True
  | item :: rest => item.InRange ∧ ItemsInRange rest

/-- Whether all integers of the values of an object are in range. -/
def MembersInRange : List (Reading × Reading) → Prop
  | [] => True
  | (_, value) :: rest => value.InRange ∧ MembersInRange rest

end

end Reading

/-! ## Values without parts -/

theorem inRange_of_integer? {numeral : Numeral} {value : Int}
    (integer : numeral.integer? = some value) : InRange value := by
  have bound : 1 <<< 63 = 2 ^ 63 ∧ 1 <<< 64 = 2 ^ 64 := by decide
  unfold Numeral.integer? at integer
  split at integer
  · cases integer
  dsimp only at integer
  split at integer
  · split at integer
    · cases integer
    · rename_i small
      cases integer
      simp only [Bool.or_eq_true, decide_eq_true_eq, not_or, Nat.not_lt] at small
      constructor <;> omega
  · split at integer
    · rename_i small
      cases integer
      constructor <;> omega
    · cases integer

theorem inRange_readNumber (text : List Char) : (readNumber text).1.InRange := by
  unfold readNumber
  split
  · trivial
  · split
    · rename_i integer
      exact inRange_of_integer? integer
    · split
      · trivial
      · trivial

theorem inRange_readString (text : List Char) : (readString text).1.InRange := by
  unfold readString
  split
  · trivial
  · split
    · trivial
    · trivial

theorem inRange_readWord (head : Char) (word : List Char) {value : Reading}
    (plain : value.InRange) (text : List Char) : (readWord head word value text).1.InRange := by
  unfold readWord
  split
  · exact plain
  · trivial

/-! ## Arrays and objects -/

section Parts

variable {α : Type} {good : List α → Prop}

theorem good_readParts (none : good []) {parts : List Char → Parts α}
    (each : ∀ text, good (parts text).1) (bracket : Char) (text : List Char) :
    good (readParts bracket text parts).1 := by
  unfold readParts
  split
  · exact none
  · split
    · exact none
    · exact each _

theorem good_joinParts {first : α} (alone : good [first]) {others : List Char → Parts α}
    (each : ∀ text, good (first :: (others text).1)) (bracket : Char)
    (rest : Option (List Char)) : good (joinParts bracket first rest others).1 := by
  unfold joinParts
  split
  · exact alone
  · split
    · exact each _
    · exact alone
    · exact alone

end Parts

theorem inRange_readMember {value : List Char → Step}
    (each : ∀ text, (value text).1.InRange) (key : Step) :
    (readMember value key).1.2.InRange := by
  unfold readMember
  split
  · trivial
  · split
    · split
      · trivial
      · split
        · exact each _
        · trivial
    · trivial

/-- Whatever is read of a value, of items and of members is in range. -/
theorem inRange_read (bound : Nat) :
    (∀ text, (readValue bound text).1.InRange) ∧
      (∀ text, Reading.ItemsInRange (readItems bound text).1) ∧
        ∀ text, Reading.MembersInRange (readMembers bound text).1 := by
  induction bound with
  | zero => exact ⟨fun _ => trivial, fun _ => trivial, fun _ => trivial⟩
  | succ bound ih =>
      obtain ⟨values, items, members⟩ := ih
      refine ⟨fun text => ?_, fun text => ?_, fun text => ?_⟩
      · have arrays := good_readParts trivial items ']'
        have objects := good_readParts trivial members '\x7d'
        unfold readValue
        split
        · trivial
        split
        · exact inRange_readString _
        split
        · exact inRange_readNumber _
        split
        · exact arrays _
        split
        · exact objects _
        split
        · exact @inRange_readWord _ _ .null trivial _
        split
        · exact @inRange_readWord _ _ (.bool true) trivial _
        split
        · exact @inRange_readWord _ _ (.bool false) trivial _
        · trivial
      · unfold readItems
        exact good_joinParts ⟨values text, trivial⟩ (fun rest => ⟨values text, items rest⟩) ']' _
      · unfold readMembers
        have value := inRange_readMember values (readValue bound text)
        exact good_joinParts ⟨value, trivial⟩ (fun rest => ⟨value, members rest⟩) '\x7d' _

theorem inRange_ofText (text : List Char) : (Reading.ofText text).1.InRange :=
  (inRange_read _).1 text

end CollectionSchema.Json
