import CollectionSchema.Proofs.Peg.Completion
import CollectionSchema.Proofs.Peg.Occurrence

/-!
# Exchanging a part of a match

Lists of tokens that differ in one part only are read alike around it, if three things
hold of every phrase that the part can be marked in.  What stands in front of the part is
read again, although it was read by looking as far as the part (`Ahead`).  The
alternatives that were given up for the part fail again (`Instead`).  And the marked
phrase itself is read in each of the lists (`Refills`).  These are the conditions of
`Phrase.Kept`; they are about two phrases next to each other, so they are shown for each
symbol apart from the others.

Then each of the lists makes a value, and all these values are built alike from the
values of the part (`Occurs.vary`).
-/

set_option autoImplicit false

namespace CollectionSchema.Peg

variable {α β H : Type}

/-- Lists of tokens that differ in one part only, each from this part on. -/
structure Variation (H : Type) where
  marks : Marks
  /-- How the values of a marked phrase can depend on the list. -/
  fits : {β : Type} → RuleName → Phrase β → (H → β) → Prop
  lists : H → List Token
  /-- How many tokens the part has. -/
  sizes : H → Nat
  same : ∀ one other, (lists one).drop (sizes one) = (lists other).drop (sizes other)
  named : ∀ one, ∃ first rest, lists one = first :: rest ∧ first.kind = .identifier

namespace Variation

variable (variation : Variation H)

/-- The place of the first token, with some tokens in front of the part. -/
def start (front : List Token) (one : H) : Position :=
  ((front ++ variation.lists one).head?.map Token.position).getD Position.start

variable {variation}

theorem drop_front {front : List Token} {taken : Nat} (le : taken ≤ front.length) (one : H) :
    (front ++ variation.lists one).drop taken = front.drop taken ++ variation.lists one :=
  List.drop_append_of_le_length le

/-- What is taken in front of the part leaves the rest of what stands in front of it. -/
theorem rest_of_front {front : List Token} {taken place : Nat}
    (whole : taken + place = front.length) :
    taken ≤ front.length ∧ place = (front.drop taken).length := by
  rw [List.length_drop]
  omega

/-- Behind the part, the lists are the same. -/
theorem drop_part (front : List Token) (one other : H) (more : Nat) :
    (front ++ variation.lists one).drop (front.length + (variation.sizes one + more)) =
      (variation.lists other).drop (variation.sizes other + more) := by
  rw [← List.drop_drop, List.drop_left, ← List.drop_drop, ← List.drop_drop, variation.same]

/-- In front of the part, or with a word at its beginning, a mark is not there in any of them. -/
theorem isSymbol_head {front : List Token} {here one : H} {character : Char}
    (unset : ∀ first ∈ (front ++ variation.lists here).head?, first.isSymbol character = false) :
    ∀ first ∈ (front ++ variation.lists one).head?, first.isSymbol character = false := by
  rcases front with _ | ⟨first, front⟩
  · obtain ⟨first, rest, same, kind⟩ := variation.named one
    rw [List.nil_append, same]
    rintro _ ⟨⟩
    exact isSymbol_of_kind (by rw [kind]; decide) character
  · exact unset

/-- An operator in front of the part is seen in front of each of the others. -/
theorem look_operator {front : List Token} {here : H} {operator : Operator} {taken : Nat}
    (read : Recognizer.operator.look (front ++ variation.lists here) = some (operator, taken))
    (le : taken ≤ front.length) (one : H) :
    Recognizer.operator.look (front ++ variation.lists one) = some (operator, taken) := by
  rcases Nat.lt_or_eq_of_le le with lt | all
  · refine look_operator_congr read ?_
    rw [List.take_append_of_le_length lt, List.take_append_of_le_length lt]
  · refine look_operator_again read ?_ ?_
    · rw [List.take_append_of_le_length le, List.take_append_of_le_length le]
    · -- The part begins with a word, so it does not go on with the operator.
      obtain ⟨first, rest, same, kind⟩ := variation.named one
      rw [all, List.drop_left, same]
      rintro _ ⟨⟩ continues
      rw [continues.symbol.1] at kind
      cases kind

end Variation

/-! ## What has to be read again -/

section Conditions

variable (variation : Variation H) (here : H) (name : RuleName)

/-- What is read in front of a phrase with the part in it is read again in front of the others. -/
structure Phrase.Ahead (first : Phrase α) (second : Phrase β) : Prop where
  again : ∀ {front : List Token} {left : α} {right other : β} {taken more count : Nat} {one : H},
    first.Reads name (front ++ variation.lists here) left taken → taken ≤ front.length →
    Occurs variation.marks name second (front.drop taken ++ variation.lists here) right
      (front.length - taken) (variation.sizes here) more →
    second.Reads name (front.drop taken ++ variation.lists one) other count →
    first.Reads name (front ++ variation.lists one) left taken

/-- An alternative that was given up for one with the part in it is given up for the others. -/
structure Phrase.Instead (follow : List Token → Prop) (first second : Phrase α) : Prop where
  missed : ∀ {front : List Token} {value other : α} {more count : Nat} {one : H},
    first.Fails name (front ++ variation.lists here) →
    Occurs variation.marks name second (front ++ variation.lists here) value front.length
      (variation.sizes here) more →
    follow ((variation.lists here).drop (variation.sizes here + more)) →
    second.Reads name (front ++ variation.lists one) other count →
    first.Fails name (front ++ variation.lists one)

/-- A phrase that can be marked is read in each of the lists. -/
def Phrase.Refills (follow : List Token → Prop) (phrase : Phrase α) : Prop :=
  variation.marks.covers name phrase = true → ∀ {value : α},
    phrase.Reads name (variation.lists here) value (variation.sizes here) →
    follow ((variation.lists here).drop (variation.sizes here)) →
    ∃ values : H → α, values here = value ∧ variation.fits name phrase values ∧
      ∀ one, phrase.Reads name (variation.lists one) (values one) (variation.sizes one)

/-- A phrase is read around the part as before.  Something is known of the tokens that follow it. -/
def Phrase.Kept : {α : Type} → (List Token → Prop) → Phrase α → Prop
  | _, follow, .token terminal => (Phrase.token terminal).Refills variation here name follow
  | _, _, .reference _ => True
  | _, follow, .sequence first second =>
      first.Kept (fun rest => ∃ value taken, second.Reads name rest value taken) ∧
        second.Kept follow ∧ first.Ahead variation here name second
  | _, follow, .choice first second =>
      (Phrase.choice first second).Refills variation here name follow ∧ first.Kept follow ∧
        second.Kept follow ∧ first.Instead variation here name follow second
  | _, _, .many body => body.Kept (fun _ => True) ∧ body.Ahead variation here name (.many body)
  | _, follow, .optional body | _, follow, .flagged _ body | _, follow, .operation body
  | _, follow, .map _ body | _, follow, .located _ body => body.Kept follow

end Conditions

/-! ## How the values depend on the list -/

/-- How the values of a phrase depend on the list, when a relation says this for the symbols. -/
def Phrase.Varies (variation : Variation H)
    (means : {β : Type} → Nonterminal β → (H → β) → Prop) (name : RuleName) :
    {α : Type} → Phrase α → (H → α) → Prop
  | _, .token terminal, values => variation.fits name (.token terminal) values
  | _, .reference symbol, values => means symbol values
  | _, .sequence first second, values =>
      (∃ left right, values = (fun one => (left one, right)) ∧
        first.Varies variation means name left) ∨
      ∃ left right, values = (fun one => (left, right one)) ∧
        second.Varies variation means name right
  | _, .choice first second, values =>
      variation.fits name (.choice first second) values ∨
        first.Varies variation means name values ∨ second.Varies variation means name values
  | _, .optional body, values =>
      ∃ inner, values = (fun one => some (inner one)) ∧ body.Varies variation means name inner
  | _, .many body, values =>
      ∃ front inner back, values = (fun one => front ++ inner one :: back) ∧
        body.Varies variation means name inner
  | _, .flagged _ body, values =>
      ∃ set inner, values = (fun one => (set, inner one)) ∧ body.Varies variation means name inner
  | _, .operation operand, values =>
      ∃ operator inner, values = (fun one => (operator, inner one)) ∧
        operand.Varies variation means name inner
  | _, .map build body, values =>
      ∃ inner, values = (fun one => build (inner one)) ∧ body.Varies variation means name inner
  | _, .located build body, values =>
      ∃ front inner, values = (fun one => build (variation.start front one) (inner one)) ∧
        body.Varies variation means name inner

/-! ## The exchange -/

section Exchange

variable {variation : Variation H} {here : H}
  {means : {β : Type} → Nonterminal β → (H → β) → Prop}

/-- Each of the lists is read with some tokens in front of the part: the values depend on the list
as those of the part do, and one of them is known. -/
def Refilled (variation : Variation H) (here : H)
    (means : {β : Type} → Nonterminal β → (H → β) → Prop) (name : RuleName) (phrase : Phrase α)
    (front : List Token) (value : α) (more : Nat) : Prop :=
  ∃ values : H → α, values here = value ∧ phrase.Varies variation means name values ∧
    ∀ one, phrase.Reads name (front ++ variation.lists one) (values one)
      (front.length + (variation.sizes one + more))

namespace Refilled

variable {name : RuleName} {front : List Token} {more behind taken : Nat}

/-- The marked phrase itself stands at the front. -/
theorem whole {phrase : Phrase α} {value : α}
    (varies : ∀ values, variation.fits name phrase values →
      phrase.Varies variation means name values)
    (refilled : ∃ values : H → α, values here = value ∧ variation.fits name phrase values ∧
      ∀ one, phrase.Reads name (variation.lists one) (values one) (variation.sizes one)) :
    Refilled variation here means name phrase [] value 0 := by
  obtain ⟨values, same, fits, reads⟩ := refilled
  exact ⟨values, same, varies values fits, by simpa using reads⟩

theorem first {first : Phrase α} {second : Phrase β} {left : α} {right : β}
    (inner : Refilled variation here means name first front left more)
    (later : second.Reads name ((variation.lists here).drop (variation.sizes here + more)) right
      behind) :
    Refilled variation here means name (.sequence first second) front (left, right)
      (more + behind) := by
  obtain ⟨values, same, varies, reads⟩ := inner
  refine ⟨fun one => (values one, right), by simp only [same], .inl ⟨values, right, rfl, varies⟩,
    fun one => ?_⟩
  rw [← variation.drop_part front one here] at later
  simpa only [Nat.add_assoc] using (reads one).sequence later

/-- What stands in front of the part is read again, and the part behind it. -/
theorem second {first : Phrase α} {second : Phrase β} {left : α} {right : β}
    (ahead : first.Ahead variation here name second)
    (read : first.Reads name (front ++ variation.lists here) left taken)
    (le : taken ≤ front.length)
    (part : Occurs variation.marks name second (front.drop taken ++ variation.lists here) right
      (front.length - taken) (variation.sizes here) more)
    (inner : Refilled variation here means name second (front.drop taken) right more) :
    Refilled variation here means name (.sequence first second) front (left, right) more := by
  obtain ⟨values, same, varies, reads⟩ := inner
  refine ⟨fun one => (left, values one), by simp only [same], .inr ⟨left, values, rfl, varies⟩,
    fun one => ?_⟩
  have again := reads one
  have whole := (ahead.again read le part again).sequence (variation.drop_front le one ▸ again)
  rwa [List.length_drop, ← Nat.add_assoc, Nat.add_sub_cancel' le] at whole

theorem choiceFirst {first second : Phrase α} {value : α}
    (inner : Refilled variation here means name first front value more) :
    Refilled variation here means name (.choice first second) front value more := by
  obtain ⟨values, same, varies, reads⟩ := inner
  exact ⟨values, same, .inr (.inl varies), fun one => (reads one).choiceFirst⟩

/-- The alternative in front fails again, and the part is read in the other one. -/
theorem choiceSecond {first second : Phrase α} {value : α} {follow : List Token → Prop}
    (instead : first.Instead variation here name follow second)
    (missed : first.Fails name (front ++ variation.lists here))
    (part : Occurs variation.marks name second (front ++ variation.lists here) value front.length
      (variation.sizes here) more)
    (follows : follow ((variation.lists here).drop (variation.sizes here + more)))
    (inner : Refilled variation here means name second front value more) :
    Refilled variation here means name (.choice first second) front value more := by
  obtain ⟨values, same, varies, reads⟩ := inner
  exact ⟨values, same, .inr (.inr varies), fun one =>
    (reads one).choiceSecond (instead.missed missed part follows (reads one))⟩

theorem optional {body : Phrase α} {value : α}
    (inner : Refilled variation here means name body front value more) :
    Refilled variation here means name (.optional body) front (some value) more := by
  obtain ⟨values, same, varies, reads⟩ := inner
  exact ⟨fun one => some (values one), by simp only [same], ⟨values, rfl, varies⟩,
    fun one => (reads one).optional⟩

theorem manyFirst {body : Phrase α} {item : α} {items : List α} (consumes : body.consumes = true)
    (inner : Refilled variation here means name body front item more)
    (later : (Phrase.many body).Reads name
      ((variation.lists here).drop (variation.sizes here + more)) items behind) :
    Refilled variation here means name (.many body) front (item :: items) (more + behind) := by
  obtain ⟨values, same, varies, reads⟩ := inner
  refine ⟨fun one => values one :: items, by simp only [same], ⟨[], values, items, rfl, varies⟩,
    fun one => ?_⟩
  rw [← variation.drop_part front one here] at later
  simpa only [Nat.add_assoc] using Phrase.Reads.many consumes (reads one) later

/-- As for two parts in a row, with the rest of the repetition as the second one. -/
theorem manyMore {body : Phrase α} {item : α} {items : List α} (consumes : body.consumes = true)
    (ahead : body.Ahead variation here name (.many body))
    (read : body.Reads name (front ++ variation.lists here) item taken)
    (le : taken ≤ front.length)
    (part : Occurs variation.marks name (.many body) (front.drop taken ++ variation.lists here)
      items (front.length - taken) (variation.sizes here) more)
    (inner : Refilled variation here means name (.many body) (front.drop taken) items more) :
    Refilled variation here means name (.many body) front (item :: items) more := by
  obtain ⟨_, same, ⟨before, values, back, rfl, varies⟩, reads⟩ := inner
  refine ⟨fun one => item :: (before ++ values one :: back), by simp only [← same],
    ⟨item :: before, values, back, rfl, varies⟩, fun one => ?_⟩
  have again := reads one
  have whole := Phrase.Reads.many consumes (ahead.again read le part again)
    (variation.drop_front le one ▸ again)
  rwa [List.length_drop, ← Nat.add_assoc, Nat.add_sub_cancel' le] at whole

theorem flagged {body : Phrase α} {character : Char} {token : Token} {value : α}
    (set : token.isSymbol character = true)
    (inner : Refilled variation here means name body front value more) :
    Refilled variation here means name (.flagged character body) (token :: front) (true, value)
      more := by
  obtain ⟨values, same, varies, reads⟩ := inner
  refine ⟨fun one => (true, values one), by simp only [same], ⟨true, values, rfl, varies⟩,
    fun one => ?_⟩
  have whole := Phrase.Reads.flagged set (reads one)
  rwa [← Nat.add_assoc, Nat.add_comm 1] at whole

theorem flaggedUnset {body : Phrase α} {character : Char} {value : α}
    (consumes : body.consumes = true)
    (unset : ∀ first ∈ (front ++ variation.lists here).head?, first.isSymbol character = false)
    (inner : Refilled variation here means name body front value more) :
    Refilled variation here means name (.flagged character body) front (false, value) more := by
  obtain ⟨values, same, varies, reads⟩ := inner
  exact ⟨fun one => (false, values one), by simp only [same], ⟨false, values, rfl, varies⟩,
    fun one => .flaggedUnset consumes (variation.isSymbol_head unset) (reads one)⟩

theorem operation {operand : Phrase α} {operator : Operator} {value : α}
    (consumes : operand.consumes = true)
    (read : Recognizer.operator.look (front ++ variation.lists here) = some (operator, taken))
    (le : taken ≤ front.length)
    (inner : Refilled variation here means name operand (front.drop taken) value more) :
    Refilled variation here means name (.operation operand) front (operator, value) more := by
  obtain ⟨values, same, varies, reads⟩ := inner
  refine ⟨fun one => (operator, values one), by simp only [same], ⟨operator, values, rfl, varies⟩,
    fun one => ?_⟩
  have whole := Phrase.Reads.operation consumes (variation.look_operator read le one)
    (variation.drop_front le one ▸ reads one)
  rwa [List.length_drop, ← Nat.add_assoc, Nat.add_sub_cancel' le] at whole

theorem map {build : α → β} {body : Phrase α} {value : α}
    (inner : Refilled variation here means name body front value more) :
    Refilled variation here means name (.map build body) front (build value) more := by
  obtain ⟨values, same, varies, reads⟩ := inner
  exact ⟨_, by simp only [same], ⟨values, rfl, varies⟩, fun one => (reads one).map⟩

theorem located {build : Position → α → β} {body : Phrase α} {value : α}
    (consumes : body.consumes = true)
    (inner : Refilled variation here means name body front value more) :
    Refilled variation here means name (.located build body) front
      (build (variation.start front here) value) more := by
  obtain ⟨values, same, varies, reads⟩ := inner
  exact ⟨_, by rw [same], ⟨front, values, rfl, varies⟩,
    fun one => (reads one).located consumes⟩

end Refilled

/-- Where a part can be exchanged, each of the lists is read, and the values depend on the list as
those of the part do. -/
theorem Occurs.vary
    (kept : ∀ {β : Type} (symbol : Nonterminal β),
      (definition symbol).Kept variation here symbol.name fun _ => True)
    (step : ∀ {β : Type} (symbol : Nonterminal β) (values : H → β),
      (definition symbol).Varies variation means symbol.name values → means symbol values)
    {name : RuleName} {phrase : Phrase α} {tokens : List Token} {value : α} {place size more : Nat}
    (part : Occurs variation.marks name phrase tokens value place size more) :
    ∀ {follow : List Token → Prop} {front : List Token},
      phrase.Kept variation here name follow → tokens = front ++ variation.lists here →
      place = front.length → size = variation.sizes here →
      follow ((variation.lists here).drop (variation.sizes here + more)) →
      Refilled variation here means name phrase front value more := by
  induction part with
  | @token _ name terminal first rest value marked read =>
      rintro follow front kept same place size follows
      obtain rfl := List.eq_nil_of_length_eq_zero place.symm
      rw [List.nil_append] at same
      refine .whole (fun _ fits => fits) (kept marked ?_ follows)
      rw [← same, ← size]
      exact .token read
  | choice marked reads =>
      rintro follow front ⟨kept, _⟩ rfl place rfl follows
      obtain rfl := List.eq_nil_of_length_eq_zero place.symm
      exact .whole (fun _ fits => .inl fits) (kept marked reads follows)
  | @reference _ _ symbol _ _ _ _ _ _ ih =>
      intro follow front _ same place size _
      obtain ⟨values, here, varies, reads⟩ := ih (kept symbol) same place size trivial
      exact ⟨values, here, step symbol values varies, fun one => (reads one).reference⟩
  | @first _ _ _ _ _ _ _ right _ _ _ behind _ later ih =>
      rintro follow front ⟨kept, _⟩ rfl rfl rfl _
      rw [variation.drop_part front here here] at later
      exact .first (ih kept rfl rfl rfl ⟨right, behind, later⟩) later
  | second read inner ih =>
      rintro follow front ⟨_, kept, ahead⟩ rfl place rfl follows
      obtain ⟨le, rfl⟩ := Variation.rest_of_front place
      rw [variation.drop_front le] at ih inner
      exact .second ahead read le (List.length_drop ▸ inner) (ih kept rfl rfl rfl follows)
  | choiceFirst _ ih =>
      rintro follow front ⟨_, kept, _⟩ same place size follows
      exact .choiceFirst (ih kept same place size follows)
  | choiceSecond missed inner ih =>
      rintro follow front ⟨_, _, kept, instead⟩ rfl rfl rfl follows
      exact .choiceSecond instead missed inner follows (ih kept rfl rfl rfl follows)
  | optional _ ih =>
      intro follow front kept same place size follows
      exact .optional (ih kept same place size follows)
  | manyFirst consumes _ later ih =>
      rintro follow front ⟨kept, _⟩ rfl rfl rfl _
      rw [variation.drop_part front here here] at later
      exact .manyFirst consumes (ih kept rfl rfl rfl trivial) later
  | manyMore consumes read inner ih =>
      rintro follow front kept rfl place rfl follows
      obtain ⟨le, rfl⟩ := Variation.rest_of_front place
      rw [variation.drop_front le] at ih inner
      exact .manyMore consumes kept.2 read le (List.length_drop ▸ inner)
        (ih kept rfl rfl rfl follows)
  | flagged set _ ih =>
      intro follow front kept same place size follows
      rcases front with _ | ⟨token, front⟩
      · rw [List.length_nil] at place
        omega
      obtain ⟨rfl, rfl⟩ := List.cons.inj same
      rw [List.length_cons, Nat.add_comm 1] at place
      exact .flagged set (ih kept rfl (Nat.succ.inj place) size follows)
  | flaggedUnset consumes unset _ ih =>
      rintro follow front kept rfl place size follows
      exact .flaggedUnset consumes unset (ih kept rfl place size follows)
  | operation consumes read inner ih =>
      rintro follow front kept rfl place rfl follows
      obtain ⟨le, rfl⟩ := Variation.rest_of_front place
      rw [variation.drop_front le] at ih inner
      exact .operation consumes read le (ih kept rfl rfl rfl follows)
  | map _ ih =>
      intro follow front kept same place size follows
      exact .map (ih kept same place size follows)
  | located consumes _ ih =>
      rintro follow front kept rfl place size follows
      exact .located consumes (ih kept rfl place size follows)

end Exchange

end CollectionSchema.Peg
