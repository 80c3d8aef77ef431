import CollectionSchema.Proofs.Json.Numeral
import CollectionSchema.Proofs.Json.Text

/-!
# Documents are read as they are written

The two ways of writing a document differ in the blanks between its parts alone.  A
layout says which blanks these are, and a document that is written with any layout
is read as itself, with the text behind it left over.

The reading goes by recursion on the document.  What follows a part decides where
the part ends only for numbers, and no number stands in front of a character that
could go on with it.  The bound of the reader is spent on characters: two of it for
each, which is one for a value and one for the list that the value stands in.
-/

set_option autoImplicit false

namespace CollectionSchema.Json

/-! ## Documents that can be written -/

mutual

/-- Whether a document has no numbers but integers in range. -/
def Plain : Json → Prop
  | .integer value => InRange value
  | .decimal _ => False
  | .array items => PlainItems items
  | .object members => PlainMembers members
  | _ => True

/-- Whether the items of an array have no numbers but integers in range. -/
def PlainItems : List Json → Prop
  | [] => True
  | item :: rest => Plain item ∧ PlainItems rest

/-- Whether the members of an object have no numbers but integers in range. -/
def PlainMembers : List (String × Json) → Prop
  | [] => True
  | (_, value) :: rest => Plain value ∧ PlainMembers rest

end

/-! ## Blanks -/

/-- Whether a text has no characters but blanks. -/
def Blank (text : List Char) : Prop := ∀ character ∈ text, isBlank character = true

theorem skipBlanks_append {blank : List Char} (allBlank : Blank blank) (text : List Char) :
    skipBlanks (blank ++ text) = skipBlanks text :=
  List.dropWhile_append_of_pos allBlank

theorem skipBlanks_cons {character : Char} (visible : isBlank character = false)
    (text : List Char) : skipBlanks (character :: text) = character :: text :=
  List.dropWhile_cons_of_neg (by simp [visible])

theorem readValue_append {blank : List Char} (allBlank : Blank blank) (bound : Nat)
    (text : List Char) : readValue bound (blank ++ text) = readValue bound text := by
  cases bound with
  | zero => simp only [readValue]
  | succ bound => simp only [readValue, skipBlanks_append allBlank]

theorem readItems_append {blank : List Char} (allBlank : Blank blank) (bound : Nat)
    (text : List Char) : readItems bound (blank ++ text) = readItems bound text := by
  cases bound with
  | zero => simp only [readItems]
  | succ bound => simp only [readItems, readValue_append allBlank]

theorem readMembers_append {blank : List Char} (allBlank : Blank blank) (bound : Nat)
    (text : List Char) : readMembers bound (blank ++ text) = readMembers bound text := by
  cases bound with
  | zero => simp only [readMembers]
  | succ bound => simp only [readMembers, readValue_append allBlank]

theorem delimited_nil : Delimited [] := fun _ none => by cases none

theorem delimited_cons {character : Char} (text : List Char)
    (mark : character.isDigit = false ∧ character ≠ '.' ∧ character ≠ 'e' ∧ character ≠ 'E') :
    Delimited (character :: text) := by
  rintro next same
  cases same
  exact mark

theorem delimited_append {blank text : List Char} (allBlank : Blank blank)
    (apart : Delimited text) : Delimited (blank ++ text) := by
  cases blank with
  | nil => exact apart
  | cons character blank =>
      refine delimited_cons _ ?_
      have space := allBlank character List.mem_cons_self
      simp only [isBlank, Bool.or_eq_true, beq_iff_eq] at space
      rcases space with ((rfl | rfl) | rfl) | rfl <;> decide

/-! ## Layouts -/

/-- The blanks with which a document is written. -/
structure Layout where
  /-- What stands in front of each part, and of a closing bracket, by the level of the line. -/
  line : Nat → List Char
  /-- What stands behind a colon. -/
  gap : List Char
  blankLine : ∀ level, Blank (line level)
  blankGap : Blank gap

namespace Layout

/-- Everything on one line without blanks. -/
def oneLine : Layout where
  line _ := []
  gap := []
  blankLine _ _ member := by cases member
  blankGap _ member := by cases member

/-- Each part on a line of its own. -/
def manyLines : Layout where
  line := newLine
  gap := [' ']
  blankLine level character member := by
    rcases List.mem_cons.mp member with rfl | inside
    · rfl
    · rw [List.eq_of_mem_replicate inside]
      rfl
  blankGap character member := by
    rw [List.mem_singleton.mp member]
    rfl

variable (layout : Layout)

mutual

/-- The characters of a document at a level. -/
def chars (level : Nat) : Json → List Char
  | .array [] => ['[', ']']
  | .array (item :: rest) =>
    '[' :: (layout.line (level + 1) ++ (chars (level + 1) item ++
      (otherItems (level + 1) rest ++ (layout.line level ++ [']']))))
  | .object [] => ['\x7b', '\x7d']
  | .object ((key, value) :: rest) =>
    '\x7b' :: (layout.line (level + 1) ++ (quote key ++ (':' :: layout.gap ++
      (chars (level + 1) value ++
        (otherMembers (level + 1) rest ++ (layout.line level ++ ['\x7d']))))))
  | value => leaf value

/-- The items of an array behind another one. -/
def otherItems (level : Nat) : List Json → List Char
  | [] => []
  | item :: rest => ',' :: (layout.line level ++ (chars level item ++ otherItems level rest))

/-- The members of an object behind another one. -/
def otherMembers (level : Nat) : List (String × Json) → List Char
  | [] => []
  | (key, value) :: rest =>
    ',' :: (layout.line level ++ (quote key ++ (':' :: layout.gap ++
      (chars level value ++ otherMembers level rest))))

end

end Layout

/-! ### The two ways of writing -/

theorem compactItems_cons (item : Json) (rest : List Json) :
    compactItems (item :: rest) =
      compactChars item ++ rest.flatMap fun next => ',' :: compactChars next := by
  induction rest generalizing item with
  | nil => simp [compactItems]
  | cons next rest ih =>
      rw [compactItems, ih next, List.flatMap_cons, List.cons_append]
      simp

theorem compactMembers_cons (member : String × Json) (rest : List (String × Json)) :
    compactMembers (member :: rest) = quote member.1 ++ ':' :: compactChars member.2 ++
      rest.flatMap fun next => ',' :: (quote next.1 ++ ':' :: compactChars next.2) := by
  induction rest generalizing member with
  | nil => simp [compactMembers]
  | cons next rest ih =>
      rw [compactMembers, ih next, List.flatMap_cons, List.cons_append]
      simp

theorem prettyItems_cons (level : Nat) (item : Json) (rest : List Json) :
    prettyItems level (item :: rest) = newLine level ++ prettyChars level item ++
      rest.flatMap fun next => ',' :: (newLine level ++ prettyChars level next) := by
  induction rest generalizing item with
  | nil => simp [prettyItems]
  | cons next rest ih =>
      rw [prettyItems, ih next, List.flatMap_cons, List.cons_append]
      simp

theorem prettyMembers_cons (level : Nat) (member : String × Json) (rest : List (String × Json)) :
    prettyMembers level (member :: rest) =
      newLine level ++ quote member.1 ++ [':', ' '] ++ prettyChars level member.2 ++
        rest.flatMap fun next =>
          ',' :: (newLine level ++ quote next.1 ++ [':', ' '] ++ prettyChars level next.2) := by
  induction rest generalizing member with
  | nil => simp [prettyMembers]
  | cons next rest ih =>
      rw [prettyMembers, ih next, List.flatMap_cons, List.cons_append]
      simp

mutual

theorem chars_oneLine (level : Nat) : ∀ doc : Json,
    Layout.oneLine.chars level doc = compactChars doc
  | .null | .bool _ | .integer _ | .decimal _ | .string _ => by
      simp only [Layout.chars, compactChars]
  | .array [] | .object [] => by
      simp only [Layout.chars, compactChars, compactItems, compactMembers]
      rfl
  | .array (item :: rest) => by
      rw [compactChars, compactItems_cons, Layout.chars, chars_oneLine (level + 1) item,
        otherItems_oneLine (level + 1) rest]
      simp [Layout.oneLine]
  | .object ((key, value) :: rest) => by
      rw [compactChars, compactMembers_cons, Layout.chars, chars_oneLine (level + 1) value,
        otherMembers_oneLine (level + 1) rest]
      simp [Layout.oneLine]

theorem otherItems_oneLine (level : Nat) : ∀ items : List Json,
    Layout.oneLine.otherItems level items = items.flatMap fun next => ',' :: compactChars next
  | [] => rfl
  | item :: rest => by
      rw [Layout.otherItems, chars_oneLine level item, otherItems_oneLine level rest]
      rfl

theorem otherMembers_oneLine (level : Nat) : ∀ members : List (String × Json),
    Layout.oneLine.otherMembers level members =
      members.flatMap fun next => ',' :: (quote next.1 ++ ':' :: compactChars next.2)
  | [] => rfl
  | (key, value) :: rest => by
      rw [Layout.otherMembers, chars_oneLine level value, otherMembers_oneLine level rest]
      simp [Layout.oneLine]

end

mutual

theorem chars_manyLines (level : Nat) : ∀ doc : Json,
    Layout.manyLines.chars level doc = prettyChars level doc
  | .null | .bool _ | .integer _ | .decimal _ | .string _ => by
      simp only [Layout.chars, prettyChars]
  | .array [] | .object [] => by
      simp only [Layout.chars, prettyChars]
  | .array (item :: rest) => by
      rw [prettyChars, prettyItems_cons, Layout.chars, chars_manyLines (level + 1) item,
        otherItems_manyLines (level + 1) rest]
      · simp [Layout.manyLines]
      · simp
  | .object ((key, value) :: rest) => by
      rw [prettyChars, prettyMembers_cons, Layout.chars, chars_manyLines (level + 1) value,
        otherMembers_manyLines (level + 1) rest]
      · simp [Layout.manyLines]
      · simp

theorem otherItems_manyLines (level : Nat) : ∀ items : List Json,
    Layout.manyLines.otherItems level items =
      items.flatMap fun next => ',' :: (newLine level ++ prettyChars level next)
  | [] => rfl
  | item :: rest => by
      rw [Layout.otherItems, chars_manyLines level item, otherItems_manyLines level rest]
      simp [Layout.manyLines]

theorem otherMembers_manyLines (level : Nat) : ∀ members : List (String × Json),
    Layout.manyLines.otherMembers level members = members.flatMap fun next =>
      ',' :: (newLine level ++ quote next.1 ++ [':', ' '] ++ prettyChars level next.2)
  | [] => rfl
  | (key, value) :: rest => by
      rw [Layout.otherMembers, chars_manyLines level value, otherMembers_manyLines level rest]
      simp [Layout.manyLines]

end

/-! ## Reading a document -/

/-- The first character of an integer is neither a blank nor one that starts or ends something
else. -/
theorem visible_of_numeric {first : Char} (numeric : first = '-' ∨ first.isDigit = true) :
    isBlank first = false ∧ first ≠ '"' ∧ first ≠ ']' := by
  rcases numeric with rfl | digit
  · decide
  refine ⟨?_, ?_, ?_⟩
  · by_contra blank
    simp only [isBlank, Bool.not_eq_false, Bool.or_eq_true, beq_iff_eq] at blank
    rcases blank with ((rfl | rfl) | rfl) | rfl <;> cases digit
  · rintro rfl
    cases digit
  · rintro rfl
    cases digit

theorem readValue_integer {value : Int} (fits : InRange value) {rest : List Char}
    (apart : Delimited rest) (bound : Nat) :
    readValue (bound + 1) ((toString value).toList ++ rest) = (.integer value, some rest) := by
  obtain ⟨first, others, same, numeric⟩ := toString_head value
  have number := readNumber_toString fits apart
  rw [same, List.cons_append] at number ⊢
  obtain ⟨visible, quote, _⟩ := visible_of_numeric numeric
  have numeral : (first = '-' || first.isDigit) = true := by simpa using numeric
  simp only [readValue, skipBlanks_cons visible, if_neg quote, numeral, if_true, number]

theorem readValue_quote (text : String) (bound : Nat) (rest : List Char) :
    readValue (bound + 1) (quote text ++ rest) = (.string text, some rest) := by
  have visible : isBlank '"' = false := by decide
  simp only [quote, List.cons_append, List.append_assoc, List.nil_append, readValue,
    skipBlanks_cons visible, if_true, readString_flatMap_escape]

variable (layout : Layout)

/-- A document starts with a visible character that closes nothing. -/
theorem chars_head (level : Nat) {doc : Json} (plain : doc.Plain) :
    ∃ first others, layout.chars level doc = first :: others ∧ isBlank first = false ∧
      first ≠ ']' := by
  match doc, plain with
  | .null, _ | .bool true, _ | .bool false, _ | .string _, _ | .array [], _ | .array (_ :: _), _
  | .object [], _ | .object (_ :: _), _ => exact ⟨_, _, rfl, by decide, by decide⟩
  | .integer value, _ =>
      obtain ⟨first, others, same, numeric⟩ := toString_head value
      exact ⟨first, others, same, (visible_of_numeric numeric).1, (visible_of_numeric numeric).2.2⟩

theorem readParts_append {α : Type} {blank : List Char} (allBlank : Blank blank)
    {bracket first : Char} (visible : isBlank first = false) (other : first ≠ bracket)
    (text : List Char) (parts : List Char → Parts α) :
    readParts bracket (blank ++ first :: text) parts = parts (first :: text) := by
  simp only [readParts, skipBlanks_append allBlank, skipBlanks_cons visible, if_neg other]

theorem joinParts_closing {α : Type} {blank : List Char} (allBlank : Blank blank) {bracket : Char}
    (visible : isBlank bracket = false) (other : bracket ≠ ',') (first : α) (rest : List Char)
    (parts : List Char → Parts α) :
    joinParts bracket first (some (blank ++ bracket :: rest)) parts =
      ([first], .closed, some rest) := by
  simp only [joinParts, continuation, skipBlanks_append allBlank, skipBlanks_cons visible,
    if_neg other, if_true]

theorem joinParts_comma {α : Type} (bracket : Char) (first : α) (text : List Char)
    (parts : List Char → Parts α) :
    joinParts bracket first (some (',' :: text)) parts =
      (first :: (parts text).1, (parts text).2.1, (parts text).2.2) := by
  have visible : isBlank ',' = false := by decide
  simp only [joinParts, continuation, skipBlanks_cons visible, if_true]

/-- What stands behind a part of an array or an object goes on with no number. -/
theorem delimited_closing {blank : List Char} (allBlank : Blank blank) {bracket : Char}
    (mark : bracket.isDigit = false ∧ bracket ≠ '.' ∧ bracket ≠ 'e' ∧ bracket ≠ 'E')
    (rest : List Char) : Delimited (blank ++ bracket :: rest) :=
  delimited_append allBlank (delimited_cons rest mark)

theorem delimited_otherItems (level : Nat) (items : List Json) {text : List Char}
    (apart : Delimited text) : Delimited (layout.otherItems level items ++ text) := by
  cases items with
  | nil => exact apart
  | cons item rest => exact delimited_cons _ (by decide)

theorem delimited_otherMembers (level : Nat) (members : List (String × Json)) {text : List Char}
    (apart : Delimited text) : Delimited (layout.otherMembers level members ++ text) := by
  cases members with
  | nil => exact apart
  | cons member rest => exact delimited_cons _ (by decide)

theorem readValue_array {text : List Char} {bound : Nat} {items : List Reading}
    {closing : Closing} {rest : Option (List Char)}
    (parts : readParts ']' text (readItems bound) = (items, closing, rest)) :
    readValue (bound + 1) ('[' :: text) = (.array items closing, rest) := by
  have visible : isBlank '[' = false := by decide
  have quote : ¬ '[' = '"' := by decide
  have numeric : ¬ ('[' = '-' || '['.isDigit) = true := by decide
  simp only [readValue, skipBlanks_cons visible, if_neg quote, if_neg numeric, if_true, parts]

theorem readValue_object {text : List Char} {bound : Nat} {members : List (Reading × Reading)}
    {closing : Closing} {rest : Option (List Char)}
    (parts : readParts '\x7d' text (readMembers bound) = (members, closing, rest)) :
    readValue (bound + 1) ('\x7b' :: text) = (.object members closing, rest) := by
  have visible : isBlank '\x7b' = false := by decide
  have quote : ¬ '\x7b' = '"' := by decide
  have numeric : ¬ ('\x7b' = '-' || '\x7b'.isDigit) = true := by decide
  have other : ¬ '\x7b' = '[' := by decide
  simp only [readValue, skipBlanks_cons visible, if_neg quote, if_neg numeric, if_neg other,
    if_true, parts]

theorem readItems_of_readValue {item : Reading} {text rest : List Char} {bound : Nat}
    (read : readValue bound text = (item, some rest)) :
    readItems (bound + 1) text = joinParts ']' item (some rest) (readItems bound) := by
  simp only [readItems, read]

/-- A member is read when its value is. -/
theorem readMembers_of_readValue (key : String) {value : Reading} {text rest : List Char}
    {bound : Nat} (read : readValue (bound + 1) text = (value, some rest)) :
    readMembers (bound + 2) (quote key ++ (':' :: layout.gap ++ text)) =
      joinParts '\x7d' (.string key, value) (some rest) (readMembers (bound + 1)) := by
  have visible : isBlank ':' = false := by decide
  have member : readMember (readValue (bound + 1))
      (readValue (bound + 1) (quote key ++ (':' :: layout.gap ++ text))) =
        ((.string key, value), some rest) := by
    rw [readValue_quote]
    simp only [readMember, isKey, if_true, List.cons_append, skipBlanks_cons visible,
      readValue_append layout.blankGap, read]
  rw [readMembers, member]

mutual

/-- A document is read as it is written. -/
theorem readValue_chars (level : Nat) : ∀ {doc : Json}, doc.Plain →
    ∀ {bound : Nat} {rest : List Char}, 2 * (layout.chars level doc).length ≤ bound →
      Delimited rest →
        readValue bound (layout.chars level doc ++ rest) = (Reading.ofJson doc, some rest)
  | doc, plain, 0, rest, enough, apart => by
      obtain ⟨first, others, same, _⟩ := chars_head layout level plain
      rw [same, List.length_cons] at enough
      omega
  | .null, _, bound + 1, rest, _, _ | .bool true, _, bound + 1, rest, _, _
  | .bool false, _, bound + 1, rest, _, _ => rfl
  | .integer value, fits, bound + 1, rest, _, apart => readValue_integer fits apart bound
  | .string text, _, bound + 1, rest, _, _ => readValue_quote text bound rest
  | .array [], _, bound + 1, rest, _, _ | .object [], _, bound + 1, rest, _, _ => rfl
  | .array (item :: items), plain, bound + 1, rest, enough, apart => by
      simp only [Layout.chars, List.length_cons, List.length_append] at enough
      obtain ⟨bound, rfl⟩ : ∃ less, bound = less + 1 := ⟨bound - 1, by omega⟩
      have behind : Delimited (layout.otherItems (level + 1) items ++
          (layout.line level ++ ']' :: rest)) :=
        delimited_otherItems layout _ items (delimited_closing (layout.blankLine level)
          (by decide) rest)
      have read := @readValue_chars (level + 1) item plain.1 bound _ (by omega) behind
      have others := @joinParts_otherItems (level + 1) items plain.2 bound (layout.line level)
        rest (Reading.ofJson item) (layout.blankLine level) (by omega)
      obtain ⟨first, front, same, visible, unlike⟩ := chars_head layout (level + 1) plain.1
      have parts := readItems_of_readValue read
      rw [others, same, List.cons_append] at parts
      have whole := readValue_array
        ((readParts_append (layout.blankLine (level + 1)) visible unlike _ _).trans parts)
      simpa [Layout.chars, same, Reading.ofJson, Reading.ofItems] using whole
  | .object ((key, value) :: members), plain, bound + 1, rest, enough, apart => by
      simp only [Layout.chars, List.length_cons, List.length_append] at enough
      obtain ⟨bound, rfl⟩ : ∃ less, bound = less + 2 := ⟨bound - 2, by omega⟩
      have behind : Delimited (layout.otherMembers (level + 1) members ++
          (layout.line level ++ '\x7d' :: rest)) :=
        delimited_otherMembers layout _ members (delimited_closing (layout.blankLine level)
          (by decide) rest)
      have read := @readValue_chars (level + 1) value plain.1 (bound + 1) _ (by omega) behind
      have others := @joinParts_otherMembers (level + 1) members plain.2 (bound + 1)
        (layout.line level) rest (.string key, Reading.ofJson value) (layout.blankLine level)
        (by omega)
      have parts := readMembers_of_readValue layout key read
      rw [others, quote, List.cons_append, List.cons_append] at parts
      have whole := readValue_object ((readParts_append (layout.blankLine (level + 1))
        (by decide) (by decide) _ _).trans parts)
      simpa [Layout.chars, quote, Reading.ofJson, Reading.ofMembers] using whole

/-- The items behind another one are read up to the closing bracket. -/
theorem joinParts_otherItems (level : Nat) : ∀ {items : List Json}, PlainItems items →
    ∀ {bound : Nat} {blank rest : List Char} (first : Reading), Blank blank →
      2 * (layout.otherItems level items).length ≤ bound →
        joinParts ']' first (some (layout.otherItems level items ++ (blank ++ ']' :: rest)))
            (readItems bound) =
          (first :: Reading.ofItems items, .closed, some rest)
  | [], _, bound, blank, rest, first, allBlank, _ =>
      joinParts_closing allBlank (by decide) (by decide) first rest (readItems bound)
  | item :: items, plain, bound, blank, rest, first, allBlank, enough => by
      simp only [Layout.otherItems, List.length_cons, List.length_append] at enough
      obtain ⟨bound, rfl⟩ : ∃ less, bound = less + 1 := ⟨bound - 1, by omega⟩
      have behind : Delimited (layout.otherItems level items ++ (blank ++ ']' :: rest)) :=
        delimited_otherItems layout _ items (delimited_closing allBlank (by decide) rest)
      have read := @readValue_chars level item plain.1 bound _ (by omega) behind
      have others := @joinParts_otherItems level items plain.2 bound blank rest
        (Reading.ofJson item) allBlank (by omega)
      have parts := readItems_of_readValue read
      rw [others, ← readItems_append (layout.blankLine level)] at parts
      simp only [Layout.otherItems, List.cons_append, List.append_assoc, joinParts_comma, parts,
        Reading.ofItems]

/-- The members behind another one are read up to the closing bracket. -/
theorem joinParts_otherMembers (level : Nat) : ∀ {members : List (String × Json)},
    PlainMembers members → ∀ {bound : Nat} {blank rest : List Char} (first : Reading × Reading),
      Blank blank → 2 * (layout.otherMembers level members).length ≤ bound →
        joinParts '\x7d' first
            (some (layout.otherMembers level members ++ (blank ++ '\x7d' :: rest)))
            (readMembers bound) =
          (first :: Reading.ofMembers members, .closed, some rest)
  | [], _, bound, blank, rest, first, allBlank, _ =>
      joinParts_closing allBlank (by decide) (by decide) first rest (readMembers bound)
  | (key, value) :: members, plain, bound, blank, rest, first, allBlank, enough => by
      simp only [Layout.otherMembers, List.length_cons, List.length_append] at enough
      obtain ⟨bound, rfl⟩ : ∃ less, bound = less + 2 := ⟨bound - 2, by omega⟩
      have behind : Delimited (layout.otherMembers level members ++ (blank ++ '\x7d' :: rest)) :=
        delimited_otherMembers layout _ members (delimited_closing allBlank (by decide) rest)
      have read := @readValue_chars level value plain.1 (bound + 1) _ (by omega) behind
      have others := @joinParts_otherMembers level members plain.2 (bound + 1) blank rest
        (.string key, Reading.ofJson value) allBlank (by omega)
      have parts := readMembers_of_readValue layout key read
      rw [others, ← readMembers_append (layout.blankLine level)] at parts
      simp only [Layout.otherMembers, List.cons_append, List.append_assoc, joinParts_comma,
        Reading.ofMembers] at parts ⊢
      rw [parts]

end

theorem ofText_chars {doc : Json} (plain : doc.Plain) :
    Reading.ofText (layout.chars 0 doc) = (Reading.ofJson doc, some []) := by
  have read := readValue_chars layout 0 plain (Nat.le_add_right _ 2) delimited_nil
  rwa [List.append_nil] at read

/-- The two ways in which a document is written. -/
def styles : List (Json → String) := [compact, pretty]

/-- A document is read as it is written in either way, and nothing is left over. -/
theorem ofText_of_mem_styles {doc : Json} (plain : doc.Plain) {style : Json → String}
    (member : style ∈ styles) :
    Reading.ofText (style doc).toList = (Reading.ofJson doc, some []) := by
  simp only [styles, List.mem_cons, List.not_mem_nil, or_false] at member
  rcases member with rfl | rfl
  · rw [compact, String.toList_ofList, ← chars_oneLine 0]
    exact ofText_chars Layout.oneLine plain
  · rw [pretty, String.toList_ofList, ← chars_manyLines 0]
    exact ofText_chars Layout.manyLines plain

end CollectionSchema.Json
