import CollectionSchema.Proofs.Token.Spacing

/-!
# What stands at the front of a text

At the front of a text there is at most one piece, and which one it is can be told
from the characters alone, without trying the patterns in turn.  Comments and white
space, identifiers and numbers are as long as they can be, a string goes up to its own
quote, and a mark stands by itself where it starts neither a comment nor a number.
A character at which nothing starts is outside all of this.
-/

set_option autoImplicit false

namespace CollectionSchema

/-- A number without a sign starts: with a digit, or with a dot and a digit. -/
inductive LeadsNumber : List Char → Prop
  | digit {digit : Char} {rest : List Char} (numeric : digit.isDigit = true) :
      LeadsNumber (digit :: rest)
  | dot {digit : Char} {rest : List Char} (numeric : digit.isDigit = true) :
      LeadsNumber ('.' :: digit :: rest)

/-- A piece and its kind, given the text that follows it. -/
inductive Stands : Option TokenKind → List Char → List Char → Prop
  | discarded {piece following : List Char} (discarded : Discarded piece following) :
      Stands none piece following
  | identifier {first : Char} {others following : List Char}
      (starts : Pattern.startsIdentifier first = true)
      (continues : ∀ other ∈ others, Pattern.continuesIdentifier other = true)
      (ends : ∀ next ∈ following.head?, Pattern.continuesIdentifier next = false) :
      Stands (some .identifier) (first :: others) following
  | string {quote : Char} {body following : List Char} (isQuote : quote = '"' ∨ quote = '\'')
      (within : quote ∉ body) : Stands (some .string) (quote :: body ++ [quote]) following
  | number {text following : List Char} (number : Lexeme .number text)
      (longest : ∀ more, more ≠ [] → more <+: following → ¬ Lexeme .number (text ++ more)) :
      Stands (some .number) text following
  | mark {character : Char} {following : List Char} (listed : character ∈ Pattern.marks)
      (noLine : character = '/' → following.head? ≠ some '/')
      (noBlock : character = '/' → ∀ body left, following ≠ '*' :: body ++ '*' :: '/' :: left)
      (noSign : character = '+' ∨ character = '-' → ¬ LeadsNumber following) :
      Stands (some .symbol) [character] following

/-- Nothing starts at a character: it is no part of any piece but a comment or a string, and as a
quote it has no partner. -/
structure Refused (character : Char) (rest : List Char) : Prop where
  solid : Text.isBlank character = false
  starts : Pattern.startsIdentifier character = false
  numeric : character.isDigit = false
  unlisted : character ∉ Pattern.marks
  unpaired : character = '"' ∨ character = '\'' → character ∉ rest

namespace Pattern

/-! ## Numbers -/

theorem digits_eq_none {text : List Char} :
    digits text = none ↔ ∀ next ∈ text.head?, next.isDigit = false := by
  rcases text with _ | ⟨first, rest⟩
  · exact ⟨fun _ => nofun, fun _ => rfl⟩
  · rw [digits, List.head?_cons]
    by_cases numeric : first.isDigit = true
    · simp [numeric]
    · simp [numeric]

theorem magnitude_eq_none {text : List Char} : magnitude text = none ↔ ¬ LeadsNumber text := by
  rcases text with _ | ⟨first, rest⟩
  · exact ⟨fun _ => nofun, fun _ => rfl⟩
  by_cases dot : first = '.'
  · subst dot
    rw [magnitude, Option.map_eq_none_iff, digits_eq_none]
    refine ⟨?_, ?_⟩
    · rintro other (leads | leads)
      · cases leads
      · rw [other _ rfl] at leads
        cases leads
    · rintro other next member
      obtain ⟨more, rfl⟩ := List.head?_eq_some_iff.mp member
      exact eq_false_of_ne_true fun leads => other (.dot leads)
  · rw [magnitude_of_ne dot, Option.map_eq_none_iff, digits_eq_none]
    refine ⟨?_, ?_⟩
    · rintro other (leads | leads)
      · rw [other _ rfl] at leads
        cases leads
      · exact dot rfl
    · rintro other _ ⟨⟩
      exact eq_false_of_ne_true fun leads => other (.digit leads)

/-- Digits are taken at full length, whatever follows them. -/
theorem digits_covers {first : Char} {others : List Char} (leads : first.isDigit = true)
    (numeric : ∀ digit ∈ others, digit.isDigit = true) (following : List Char) :
    ∃ cut, digits (first :: others ++ following) = some cut ∧
      (first :: others).length ≤ cut.taken.length := by
  refine ⟨_, by rw [List.cons_append, digits, if_pos leads], ?_⟩
  have run : (Cut.run Char.isDigit (others ++ following)).taken =
      others ++ following.takeWhile Char.isDigit :=
    List.takeWhile_append_of_pos numeric
  rw [Cut.prepend, run]
  simp

/-- A number without a sign is taken at full length, whatever follows it. -/
theorem magnitude_covers {text : List Char} (number : Magnitude text) (following : List Char) :
    ∃ cut, magnitude (text ++ following) = some cut ∧ text.length ≤ cut.taken.length := by
  cases number with
  | tail leads numeric =>
      obtain ⟨cut, found, long⟩ := digits_covers leads numeric following
      exact ⟨_, congrArg (Option.map (Cut.prepend ['.'])) found, Nat.succ_le_succ long⟩
  | @whole first others fraction leads numeric behind =>
      have dot : first ≠ '.' := by
        rintro rfl
        cases leads
      rw [List.append_assoc, List.cons_append, magnitude_of_ne dot, ← List.cons_append]
      cases behind with
      | absent =>
          obtain ⟨cut, found, long⟩ := digits_covers leads numeric following
          refine ⟨_, by rw [List.nil_append, found, Option.map_some], ?_⟩
          rw [List.append_nil, Cut.prepend, List.length_append]
          omega
      | @present later places =>
          have found : digits (first :: others ++ '.' :: (later ++ following)) =
              some ⟨first :: others, '.' :: (later ++ following)⟩ :=
            digits_append leads numeric (by rintro _ ⟨⟩; rfl)
          have run : (Cut.run Char.isDigit (later ++ following)).taken =
              later ++ following.takeWhile Char.isDigit :=
            List.takeWhile_append_of_pos places
          refine ⟨_, congrArg (Option.map _) found, ?_⟩
          simp [Pattern.fraction, Cut.prepend, run]

theorem number_covers {text : List Char} (lexeme : Lexeme .number text) (following : List Char) :
    ∃ cut, number (text ++ following) = some cut ∧ text.length ≤ cut.taken.length := by
  cases lexeme with
  | unsigned leads magnitude =>
      rw [List.cons_append, number_of_isDigit leads, ← List.cons_append]
      exact magnitude_covers magnitude following
  | signed isSign magnitude =>
      obtain ⟨cut, found, long⟩ := magnitude_covers magnitude following
      rcases isSign with rfl | rfl
      · exact ⟨_, congrArg (Option.map (Cut.prepend ['+'])) found, Nat.succ_le_succ long⟩
      · exact ⟨_, congrArg (Option.map (Cut.prepend ['-'])) found, Nat.succ_le_succ long⟩

theorem number_longest {text : List Char} {cut : Cut} (found : number text = some cut) :
    ∀ more, more ≠ [] → more <+: cut.left → ¬ Lexeme .number (cut.taken ++ more) := by
  rintro more some ⟨left, same⟩ lexeme
  obtain ⟨other, again, long⟩ := number_covers lexeme left
  rw [List.append_assoc, same, (number_divides found).whole, found] at again
  cases again
  have longer := List.length_pos_iff.mpr some
  rw [List.length_append] at long
  omega

/-! ## The piece that is found -/

theorem leading_stops {first others : Char → Bool} {text : List Char} {cut : Cut}
    (found : leading first others text = some cut) :
    ∀ next ∈ cut.left.head?, others next = false := by
  rcases text with _ | ⟨character, rest⟩
  · cases found
  · rw [leading] at found
    split at found
    · cases found
      exact head_dropWhile
    · cases found

theorem stands_of_identifier {text : List Char} {cut : Cut} (found : identifier text = some cut) :
    Stands (some .identifier) cut.taken cut.left := by
  rw [identifier_eq_leading] at found
  obtain ⟨first, others, _, taken, starts, continues⟩ := exists_of_leading found
  rw [taken]
  exact .identifier starts continues (leading_stops found)

theorem stands_of_string {text : List Char} {cut : Cut} (found : string text = some cut) :
    Stands (some .string) cut.taken cut.left := by
  generalize taken : cut.taken = piece
  have lexeme := lexeme_of_string found
  rw [taken] at lexeme
  cases lexeme with
  | string isQuote within => exact .string isQuote within

theorem stands_of_number {text : List Char} {cut : Cut} (found : number text = some cut)
    (missed : identifier text = none) : Stands (some .number) cut.taken cut.left :=
  .number (lexeme_of_number found missed) (number_longest found)

/-- A block with an end somewhere has a first end. -/
theorem blockEnd_ne_none (body left : List Char) :
    blockEnd (body ++ '*' :: '/' :: left) ≠ none := by
  induction body with
  | nil => exact Option.some_ne_none _
  | cons character rest ih =>
      intro missed
      unfold blockEnd at missed
      split at missed
      case h_1 same => cases same
      case h_2 => cases missed
      case h_3 same =>
        obtain ⟨rfl, rfl⟩ := List.cons.inj same
        exact ih (Option.map_eq_none_iff.mp missed)

theorem stands_of_mark {text : List Char} {cut : Cut} (found : mark text = some cut)
    (noComment : comment text = none) (noNumber : number text = none) :
    Stands (some .symbol) cut.taken cut.left := by
  rcases text with _ | ⟨character, rest⟩
  · cases found
  rw [mark] at found
  split at found
  case isFalse => cases found
  case isTrue listed =>
    cases found
    refine .mark (List.contains_iff_mem.mp listed) ?_ ?_ ?_
    · rintro rfl next
      obtain ⟨more, rfl⟩ := List.head?_eq_some_iff.mp next
      cases noComment
    · rintro rfl body left rfl
      exact blockEnd_ne_none body left (Option.map_eq_none_iff.mp noComment)
    · intro isSign
      refine magnitude_eq_none.mp ?_
      rcases isSign with rfl | rfl <;> exact Option.map_eq_none_iff.mp noNumber

theorem stands_of_firstMatch {text : List Char} {kind : Option TokenKind} {cut : Cut}
    (found : firstMatch text = some (kind, cut)) : Stands kind cut.taken cut.left := by
  rcases kind with _ | kind
  · rcases of_skip found with piece | space
    · exact .discarded (discarded_of_comment piece)
    · exact .discarded (discarded_of_blanks space)
  · cases takenBy_of_firstMatch found with
    | identifier found => exact stands_of_identifier found
    | string found => exact stands_of_string found
    | number noIdentifier found => exact stands_of_number found noIdentifier
    | mark noComment noNumber found => exact stands_of_mark found noComment noNumber

/-! ## The piece that stands there is found -/

theorem firstMatch_of_discarded {piece following : List Char}
    (discarded : Discarded piece following) :
    firstMatch (piece ++ following) = some (none, ⟨piece, following⟩) := by
  cases discarded with
  | line within ends => exact firstMatch_of_comment (comment_line within ends)
  | @block body _ first =>
      have taken := firstMatch_of_comment (comment_block first following)
      rw [List.append_assoc]
      exact taken
  | blanks some blank ends =>
      rcases piece with _ | ⟨character, rest⟩
      · exact absurd rfl some
      rw [List.cons_append, firstMatch_blank (blank character List.mem_cons_self),
        Cut.run_append (fun other member => blank other (List.mem_cons_of_mem _ member)) ends]
      rfl

theorem number_of_longest {text following : List Char} (lexeme : Lexeme .number text)
    (longest : ∀ more, more ≠ [] → more <+: following → ¬ Lexeme .number (text ++ more)) :
    number (text ++ following) = some ⟨text, following⟩ := by
  obtain ⟨cut, found, long⟩ := number_covers lexeme following
  have noIdentifier : identifier (text ++ following) = none := by
    rcases text with _ | ⟨first, others⟩
    · cases lexeme
    obtain ⟨_, _, starts, _, _⟩ := of_number lexeme
    simp [identifier, starts]
  have taken := lexeme_of_number found noIdentifier
  have whole := (number_divides found).whole
  have front : text <+: cut.taken :=
    List.prefix_of_prefix_length_le (List.prefix_append _ _) ⟨cut.left, whole⟩ long
  obtain ⟨more, same⟩ := front
  rw [← same, List.append_assoc, List.append_cancel_left_eq] at whole
  by_cases none : more = []
  · subst none
    rw [found]
    rw [List.append_nil] at same
    rw [List.nil_append] at whole
    rw [same, ← whole]
  · exact absurd (same ▸ taken) (longest more none ⟨cut.left, whole⟩)

theorem comment_eq_none {character : Char} {following : List Char}
    (noLine : character = '/' → following.head? ≠ some '/')
    (noBlock : character = '/' → ∀ body left, following ≠ '*' :: body ++ '*' :: '/' :: left) :
    comment (character :: following) = none := by
  by_cases slash : character = '/'
  case neg => exact comment_of_ne slash following
  subst slash
  rcases following with _ | ⟨next, rest⟩
  · rfl
  by_cases star : next = '*'
  · subst star
    rcases ended : blockEnd rest with _ | cut
    · exact congrArg (Option.map _) ended
    · obtain ⟨body, taken, _⟩ := blockEnd_first ended
      have whole := blockEnd_whole ended
      rw [taken, List.append_assoc] at whole
      exact absurd (congrArg ('*' :: ·) whole.symm) (noBlock rfl body cut.left)
  · refine comment_of_slash ?_ star rest
    rintro rfl
    exact noLine rfl rfl

theorem firstMatch_of_stands {kind : Option TokenKind} {piece following : List Char}
    (stands : Stands kind piece following) :
    firstMatch (piece ++ following) = some (kind, ⟨piece, following⟩) := by
  cases stands with
  | discarded discarded => exact firstMatch_of_discarded discarded
  | identifier starts continues ends => exact firstMatch_identifier starts continues ends
  | string isQuote within => exact firstMatch_string isQuote within
  | number lexeme longest => exact firstMatch_number lexeme (number_of_longest lexeme longest)
  | mark listed noLine noBlock noSign =>
      exact firstMatch_mark listed (comment_eq_none noLine noBlock)
        (number_of_mark listed fun isSign => magnitude_eq_none.mpr (noSign isSign))

/-- The patterns find the piece that stands at the front of a text. -/
theorem firstMatch_eq_some_iff {text : List Char} {kind : Option TokenKind} {cut : Cut} :
    firstMatch text = some (kind, cut) ↔
      cut.taken ++ cut.left = text ∧ Stands kind cut.taken cut.left := by
  refine ⟨?_, ?_⟩
  · intro found
    exact ⟨(firstMatch_divides found).1.whole, stands_of_firstMatch found⟩
  · rintro ⟨rfl, stands⟩
    exact firstMatch_of_stands stands

/-- A quote without a partner starts no string. -/
theorem quoted_eq_none {quote : Char} {text : List Char} :
    quoted quote text = none ↔ quote ∉ text := by
  have unpaired : text.dropWhile (· ≠ quote) = [] ↔ quote ∉ text := by
    rw [List.dropWhile_eq_nil_iff]
    refine ⟨?_, ?_⟩
    · intro all inside
      simpa using all quote inside
    · intro within character member
      simpa using ne_of_mem_of_not_mem member within
  rw [← unpaired, quoted]
  cases text.dropWhile (· ≠ quote) <;> simp

/-- The patterns find nothing just at the characters at which nothing starts. -/
theorem firstMatch_eq_none_iff {character : Char} {rest : List Char} :
    firstMatch (character :: rest) = none ↔ Refused character rest := by
  refine ⟨?_, ?_⟩
  · intro missed
    obtain ⟨_, noBlanks, noIdentifier, noString, noNumber, noMark⟩ :
        comment (character :: rest) = none ∧ blanks (character :: rest) = none ∧
          identifier (character :: rest) = none ∧ string (character :: rest) = none ∧
          number (character :: rest) = none ∧ mark (character :: rest) = none := by
      simpa [firstMatch, table] using missed
    refine ⟨?_, ?_, ?_, ?_, ?_⟩
    · simpa [blanks] using noBlanks
    · simpa [identifier] using noIdentifier
    · refine eq_false_of_ne_true fun numeric => ?_
      rw [number_of_isDigit numeric] at noNumber
      exact magnitude_eq_none.mp noNumber (.digit numeric)
    · simpa [mark] using noMark
    · rintro (rfl | rfl)
      · exact quoted_eq_none.mp noString
      · exact quoted_eq_none.mp noString
  · intro refused
    by_cases isQuote : character = '"' ∨ character = '\''
    · have within := quoted_eq_none.mpr (refused.unpaired isQuote)
      refine firstMatch_quote isQuote ?_
      rcases isQuote with rfl | rfl <;> exact within
    · obtain ⟨double, single⟩ := not_or.mp isQuote
      have other : ∀ listed ∈ marks, character ≠ listed := by
        rintro listed member rfl
        exact refused.unlisted member
      have dot : character ≠ '.' := by
        rintro rfl
        cases refused.starts
      have noNumber : number (character :: rest) = none := by
        rw [number_of_ne (other '+' (by decide)) (other '-' (by decide)), magnitude_of_ne dot]
        simp [digits, refused.numeric]
      rw [firstMatch_of_solid (comment_of_ne (other '/' (by decide)) rest) refused.solid
        refused.starts double single, noNumber, mark, if_neg (by simpa using refused.unlisted)]
      rfl

end Pattern

end CollectionSchema
