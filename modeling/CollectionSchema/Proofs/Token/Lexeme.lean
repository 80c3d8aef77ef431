import CollectionSchema.Proofs.Token.Joining
import CollectionSchema.Proofs.Token.Lossless

/-!
# The text of a token

Which texts a token can have depends on its kind only, and not on what stands around
it.  And such a text makes its token again wherever white space follows it: the
white space ends the runs of letters and digits, it starts no fraction and no number
behind a sign, and it does not make a slash the start of a comment.
-/

set_option autoImplicit false

namespace CollectionSchema

/-! ## Texts by kind -/

/-- The digits behind a dot, with the dot, or nothing at all. -/
inductive Fraction : List Char → Prop
  | absent : Fraction []
  | present {digits : List Char} (numeric : ∀ digit ∈ digits, digit.isDigit = true) :
      Fraction ('.' :: digits)

/-- A number without a sign. -/
inductive Magnitude : List Char → Prop
  | whole {first : Char} {digits fraction : List Char} (leads : first.isDigit = true)
      (numeric : ∀ digit ∈ digits, digit.isDigit = true) (behind : Fraction fraction) :
      Magnitude (first :: digits ++ fraction)
  | tail {first : Char} {digits : List Char} (leads : first.isDigit = true)
      (numeric : ∀ digit ∈ digits, digit.isDigit = true) : Magnitude ('.' :: first :: digits)

/-- A text of a token of this kind.  A number that starts with a dot has a sign, for a dot without a
sign starts an identifier. -/
inductive Lexeme : TokenKind → List Char → Prop
  | identifier {first : Char} {others : List Char}
      (starts : Pattern.startsIdentifier first = true)
      (continues : ∀ other ∈ others, Pattern.continuesIdentifier other = true) :
      Lexeme .identifier (first :: others)
  | string {quote : Char} {body : List Char} (isQuote : quote = '"' ∨ quote = '\'')
      (within : quote ∉ body) : Lexeme .string (quote :: body ++ [quote])
  | unsigned {first : Char} {others : List Char} (leads : first.isDigit = true)
      (magnitude : Magnitude (first :: others)) : Lexeme .number (first :: others)
  | signed {sign : Char} {text : List Char} (isSign : sign = '+' ∨ sign = '-')
      (magnitude : Magnitude text) : Lexeme .number (sign :: text)
  | mark {character : Char} (listed : character ∈ Pattern.marks) : Lexeme .symbol [character]

/-! ## Characters -/

theorem isDigit_iff {character : Char} :
    character.isDigit = true ↔ 48 ≤ character.toNat ∧ character.toNat ≤ 57 := by
  simp only [Char.isDigit, Bool.and_eq_true, decide_eq_true_eq]
  exact Iff.rfl

namespace Pattern

theorem toNat_of_startsIdentifier {character : Char} (starts : startsIdentifier character = true) :
    character.toNat = 46 ∨ character.toNat = 95 ∨ (65 ≤ character.toNat ∧ character.toNat ≤ 90) ∨
      (97 ≤ character.toNat ∧ character.toNat ≤ 122) := by
  simp only [startsIdentifier, isAlpha_eq, isUpper_eq, isLower_eq, Bool.or_eq_true,
    Bool.and_eq_true, decide_eq_true_eq, beq_iff_eq] at starts
  rcases starts with ((upper | lower) | rfl) | rfl
  · exact .inr (.inr (.inl upper))
  · exact .inr (.inr (.inr lower))
  · decide
  · decide

theorem startsIdentifier_of_isDigit {character : Char} (digit : character.isDigit = true) :
    startsIdentifier character = false := by
  by_contra starts
  have range := isDigit_iff.mp digit
  have letter := toNat_of_startsIdentifier (Bool.not_eq_false _ ▸ starts)
  omega

/-- White space ends an identifier. -/
theorem continuesIdentifier_of_isBlank {character : Char} (blank : Text.isBlank character = true) :
    continuesIdentifier character = false := by
  simp only [Text.isBlank, Text.inRanges, Text.blankRanges, List.any_cons, List.any_nil,
    Bool.or_false, Bool.or_eq_true, Bool.and_eq_true, decide_eq_true_eq] at blank
  by_contra continues
  simp only [continuesIdentifier, Bool.not_eq_false, Bool.or_eq_true] at continues
  rcases continues with starts | digit
  · have letter := toNat_of_startsIdentifier starts
    omega
  · have range := isDigit_iff.mp digit
    omega

/-- White space ends the digits of a number. -/
theorem isDigit_of_isBlank {character : Char} (blank : Text.isBlank character = true) :
    character.isDigit = false :=
  (Bool.or_eq_false_iff.mp (continuesIdentifier_of_isBlank blank)).2

end Pattern

/-! ## Every token has such a text -/

theorem Cut.run_taken {test : Char → Bool} {text : List Char} :
    ∀ character ∈ (run test text).taken, test character = true :=
  fun _ => List.mem_takeWhile_imp

namespace Pattern

theorem exists_of_leading {first others : Char → Bool} {text : List Char} {cut : Cut}
    (found : leading first others text = some cut) :
    ∃ head rest, text.head? = some head ∧ cut.taken = head :: rest ∧ first head = true ∧
      ∀ character ∈ rest, others character = true := by
  rcases text with _ | ⟨head, text⟩
  · cases found
  rw [leading] at found
  split at found
  case isTrue leads =>
    cases found
    exact ⟨head, _, rfl, rfl, leads, Cut.run_taken⟩
  case isFalse => cases found

theorem lexeme_of_identifier {text : List Char} {cut : Cut} (found : identifier text = some cut) :
    Lexeme .identifier cut.taken := by
  obtain ⟨first, others, _, taken, starts, continues⟩ :=
    exists_of_leading (identifier_eq_leading ▸ found)
  exact taken ▸ .identifier starts continues

theorem lexeme_of_quoted {quote : Char} {text : List Char} {cut : Cut}
    (isQuote : quote = '"' ∨ quote = '\'') (found : quoted quote text = some cut) :
    Lexeme .string cut.taken := by
  unfold quoted at found
  split at found
  · cases found
  case _ closing left ended =>
    cases found
    have closes : closing = quote := by
      have head : closing ∈ (text.dropWhile (· ≠ quote)).head? := by
        rw [ended]
        rfl
      simpa using head_dropWhile closing head
    subst closes
    exact .string isQuote fun inside => by simpa using List.mem_takeWhile_imp inside

theorem lexeme_of_string {text : List Char} {cut : Cut} (found : string text = some cut) :
    Lexeme .string cut.taken := by
  unfold string at found
  split at found
  · exact lexeme_of_quoted (.inl rfl) found
  · exact lexeme_of_quoted (.inr rfl) found
  · cases found

theorem fraction_taken (text : List Char) : Fraction (fraction text).taken := by
  unfold fraction
  split
  · exact .present Cut.run_taken
  · exact .absent

theorem magnitude_taken {text : List Char} {cut : Cut} (found : magnitude text = some cut) :
    Magnitude cut.taken := by
  unfold magnitude at found
  split at found
  · obtain ⟨inner, read, rfl⟩ := Option.map_eq_some_iff.mp found
    obtain ⟨first, digits, _, taken, leads, numeric⟩ :=
      exists_of_leading (digits_eq_leading ▸ read)
    rw [Cut.prepend, taken]
    exact .tail leads numeric
  · obtain ⟨inner, read, rfl⟩ := Option.map_eq_some_iff.mp found
    obtain ⟨first, digits, _, taken, leads, numeric⟩ :=
      exists_of_leading (digits_eq_leading ▸ read)
    rw [Cut.prepend, taken]
    exact .whole leads numeric (fraction_taken _)

/-- A number is the text of a token where no identifier starts. -/
theorem lexeme_of_number {text : List Char} {cut : Cut} (found : number text = some cut)
    (missed : identifier text = none) : Lexeme .number cut.taken := by
  unfold number at found
  split at found
  · obtain ⟨inner, read, rfl⟩ := Option.map_eq_some_iff.mp found
    exact .signed (.inl rfl) (magnitude_taken read)
  · obtain ⟨inner, read, rfl⟩ := Option.map_eq_some_iff.mp found
    exact .signed (.inr rfl) (magnitude_taken read)
  · rcases text with _ | ⟨first, rest⟩
    · cases found
    have other : first ≠ '.' := by
      rintro rfl
      cases missed
    rw [magnitude_of_ne other] at found
    obtain ⟨inner, read, rfl⟩ := Option.map_eq_some_iff.mp found
    obtain ⟨first, digits, _, taken, leads, numeric⟩ :=
      exists_of_leading (digits_eq_leading ▸ read)
    rw [Cut.prepend, taken]
    exact .unsigned leads (.whole leads numeric (fraction_taken _))

theorem lexeme_of_mark {text : List Char} {cut : Cut} (found : mark text = some cut) :
    Lexeme .symbol cut.taken := by
  rcases text with _ | ⟨first, rest⟩
  · cases found
  rw [mark] at found
  split at found
  case isTrue listed =>
    cases found
    exact .mark (List.contains_iff_mem.mp listed)
  case isFalse => cases found

/-- The pattern that takes a token, and what the patterns before it have missed. -/
inductive TakenBy (text : List Char) : TokenKind → Cut → Prop
  | identifier {cut : Cut} (found : Pattern.identifier text = some cut) :
      TakenBy text .identifier cut
  | string {cut : Cut} (found : Pattern.string text = some cut) : TakenBy text .string cut
  | number {cut : Cut} (noIdentifier : Pattern.identifier text = none)
      (found : Pattern.number text = some cut) : TakenBy text .number cut
  | mark {cut : Cut} (noComment : Pattern.comment text = none)
      (noNumber : Pattern.number text = none) (found : Pattern.mark text = some cut) :
      TakenBy text .symbol cut

theorem takenBy_of_firstMatch {text : List Char} {kind : TokenKind} {cut : Cut}
    (found : firstMatch text = some (some kind, cut)) : TakenBy text kind cut := by
  obtain ⟨missed, first, head, solid⟩ := of_token found
  obtain ⟨rest, rfl⟩ := List.head?_eq_some_iff.mp head
  have blank : blanks (first :: rest) = none := by simp [blanks, solid]
  simp only [firstMatch, table, List.findSome?_cons, List.findSome?_nil, missed, blank,
    Option.map_none] at found
  rcases name : identifier (first :: rest) with _ | _
  case some =>
    rw [name] at found
    cases found
    exact .identifier name
  rcases quoted : string (first :: rest) with _ | _
  case some =>
    rw [name, quoted] at found
    cases found
    exact .string quoted
  rcases numeric : number (first :: rest) with _ | _
  case some =>
    rw [name, quoted, numeric] at found
    cases found
    exact .number name numeric
  rcases single : mark (first :: rest) with _ | _
  case some =>
    rw [name, quoted, numeric, single] at found
    cases found
    exact .mark missed numeric single
  rw [name, quoted, numeric, single] at found
  cases found

/-- The piece of a token is a text of its kind. -/
theorem lexeme_of_firstMatch {text : List Char} {kind : TokenKind} {cut : Cut}
    (found : firstMatch text = some (some kind, cut)) : Lexeme kind cut.taken := by
  cases takenBy_of_firstMatch found with
  | identifier found => exact lexeme_of_identifier found
  | string found => exact lexeme_of_string found
  | number noIdentifier found => exact lexeme_of_number found noIdentifier
  | mark _ _ found => exact lexeme_of_mark found

end Pattern

/-! ## Every such text makes its token again -/

/-- White space stands behind a text, or nothing at all. -/
def Text.Apart (following : List Char) : Prop :=
  ∀ next ∈ following.head?, Text.isBlank next = true

/-- A run takes all characters that pass its test, up to one that does not. -/
theorem Cut.run_append {test : Char → Bool} {front following : List Char}
    (all : ∀ character ∈ front, test character = true)
    (stops : ∀ next ∈ following.head?, test next = false) :
    run test (front ++ following) = ⟨front, following⟩ := by
  induction front with
  | nil =>
      rcases following with _ | ⟨next, rest⟩
      · rfl
      · simp [run, stops next rfl]
  | cons first rest ih =>
      have whole := ih fun character member => all character (List.mem_cons_of_mem first member)
      simp only [run, mk.injEq] at whole
      simp [run, all first List.mem_cons_self, whole]

namespace Pattern

variable {following : List Char}

theorem digits_append {first : Char} {others : List Char} (leads : first.isDigit = true)
    (numeric : ∀ digit ∈ others, digit.isDigit = true)
    (stops : ∀ next ∈ following.head?, next.isDigit = false) :
    digits (first :: others ++ following) = some ⟨first :: others, following⟩ := by
  rw [List.cons_append, digits, if_pos leads, Cut.run_append numeric stops]
  rfl

theorem fraction_append {text : List Char} (behind : Fraction text)
    (apart : Text.Apart following) : fraction (text ++ following) = ⟨text, following⟩ := by
  cases behind with
  | absent =>
      rcases following with _ | ⟨next, rest⟩
      · rfl
      · have other : next ≠ '.' := by
          rintro rfl
          cases apart '.' rfl
        exact fraction_of_ne other rest
  | present numeric =>
      exact congrArg (Cut.prepend ['.'])
        (Cut.run_append numeric fun next member => isDigit_of_isBlank (apart next member))

theorem magnitude_append {text : List Char} (number : Magnitude text)
    (apart : Text.Apart following) :
    magnitude (text ++ following) = some ⟨text, following⟩ := by
  cases number with
  | tail leads numeric =>
      refine congrArg (Option.map (Cut.prepend ['.'])) (digits_append leads numeric ?_)
      exact fun next member => isDigit_of_isBlank (apart next member)
  | @whole first digits fraction leads numeric behind =>
      have other : first ≠ '.' := by
        rintro rfl
        cases leads
      have stops : ∀ next ∈ (fraction ++ following).head?, next.isDigit = false := by
        cases behind with
        | absent => exact fun next member => isDigit_of_isBlank (apart next member)
        | present =>
            rintro _ ⟨⟩
            rfl
      have whole := digits_append leads numeric stops
      rw [List.append_assoc, List.cons_append, magnitude_of_ne other, ← List.cons_append, whole,
        Option.map_some, fraction_append behind apart]
      rfl

theorem quoted_append_quote {quote : Char} {body : List Char} (within : quote ∉ body) :
    quoted quote (body ++ quote :: following) = some ⟨quote :: body ++ [quote], following⟩ := by
  have inside : ∀ character ∈ body, (decide (character ≠ quote)) = true := by
    rintro character member
    simpa using ne_of_mem_of_not_mem member within
  have stops : ∀ next ∈ (quote :: following).head?, (decide (next ≠ quote)) = false := by
    rintro _ ⟨⟩
    simp
  have run : Cut.run (· ≠ quote) (body ++ quote :: following) = ⟨body, quote :: following⟩ :=
    Cut.run_append inside stops
  simp only [Cut.run, Cut.mk.injEq] at run
  rw [quoted, run.1, run.2]

theorem number_of_isDigit {first : Char} (leads : first.isDigit = true) (rest : List Char) :
    number (first :: rest) = magnitude (first :: rest) := by
  refine number_of_ne ?_ ?_ rest <;>
    · rintro rfl
      cases leads

/-- No number starts with white space. -/
theorem magnitude_of_apart (apart : Text.Apart following) : magnitude following = none := by
  rcases following with _ | ⟨next, rest⟩
  · rfl
  · have blank := apart next rfl
    have other : next ≠ '.' := by
      rintro rfl
      cases blank
    simp [magnitude_of_ne other, digits, isDigit_of_isBlank blank]

/-- No comment has white space behind its first character. -/
theorem comment_of_apart (first : Char) (apart : Text.Apart following) :
    comment (first :: following) = none := by
  by_cases slash : first = '/'
  case neg => exact comment_of_ne slash following
  subst slash
  rcases following with _ | ⟨next, rest⟩
  · rfl
  · refine comment_of_slash ?_ ?_ rest <;>
      · rintro rfl
        cases apart _ rfl

/-- What no mark is. -/
theorem of_mem_marks {character : Char} (listed : character ∈ marks) :
    Text.isBlank character = false ∧ startsIdentifier character = false ∧
      character.isDigit = false ∧ character ≠ '"' ∧ character ≠ '\'' ∧ character ≠ '.' := by
  have all : marks.all (fun other => !Text.isBlank other && !startsIdentifier other &&
      !other.isDigit && other != '"' && other != '\'' && other != '.') = true := by
    decide
  simpa [and_assoc] using List.all_eq_true.mp all character listed

/-- A mark is no number, unless it is a sign and a number follows it directly. -/
theorem number_of_mark {character : Char} (listed : character ∈ marks)
    (noSign : character = '+' ∨ character = '-' → magnitude following = none) :
    number (character :: following) = none := by
  by_cases plus : character = '+'
  · subst plus
    exact congrArg (Option.map (Cut.prepend ['+'])) (noSign (.inl rfl))
  by_cases minus : character = '-'
  · subst minus
    exact congrArg (Option.map (Cut.prepend ['-'])) (noSign (.inr rfl))
  obtain ⟨_, _, digit, _, _, dot⟩ := of_mem_marks listed
  simp [number_of_ne plus minus, magnitude_of_ne dot, digits, digit]

/-- Where a character starts neither a word nor a string, there is a number or a mark. -/
theorem firstMatch_of_solid {first : Char} {rest : List Char}
    (missed : comment (first :: rest) = none) (solid : Text.isBlank first = false)
    (starts : startsIdentifier first = false) (double : first ≠ '"') (single : first ≠ '\'') :
    firstMatch (first :: rest) =
      ((number (first :: rest)).map fun cut => (some .number, cut)).or
        ((mark (first :: rest)).map fun cut => (some .symbol, cut)) := by
  have blank : blanks (first :: rest) = none := by simp [blanks, solid]
  have word : identifier (first :: rest) = none := by simp [identifier, starts]
  have quoted : string (first :: rest) = none := by simp [string, double, single]
  simp only [firstMatch, table, List.findSome?_cons, List.findSome?_nil, missed, blank, word,
    quoted, Option.map_none]
  rcases number (first :: rest) with _ | cut
  · rcases mark (first :: rest) with _ | cut <;> rfl
  · rfl

theorem firstMatch_identifier {first : Char} {others : List Char}
    (starts : startsIdentifier first = true)
    (continues : ∀ other ∈ others, continuesIdentifier other = true)
    (ends : ∀ next ∈ following.head?, continuesIdentifier next = false) :
    firstMatch (first :: others ++ following) =
      some (some .identifier, ⟨first :: others, following⟩) := by
  have solid : Text.isBlank first = false := by
    by_contra blank
    have stops := continuesIdentifier_of_isBlank (Bool.not_eq_false _ ▸ blank)
    simp [continuesIdentifier, starts] at stops
  have other : first ≠ '/' := by
    rintro rfl
    cases starts
  have piece : identifier (first :: (others ++ following)) =
      some ⟨first :: others, following⟩ := by
    rw [identifier, if_pos starts, Cut.run_append continues ends]
    rfl
  simp [firstMatch, table, comment_of_ne other, blanks, solid, piece]

theorem firstMatch_string {quote : Char} {body : List Char}
    (isQuote : quote = '"' ∨ quote = '\'') (within : quote ∉ body) :
    firstMatch (quote :: body ++ [quote] ++ following) =
      some (some .string, ⟨quote :: body ++ [quote], following⟩) := by
  obtain ⟨other, solid, starts⟩ : quote ≠ '/' ∧ Text.isBlank quote = false ∧
      startsIdentifier quote = false := by
    rcases isQuote with rfl | rfl <;> decide
  have piece : string (quote :: (body ++ quote :: following)) =
      some ⟨quote :: body ++ [quote], following⟩ := by
    rcases isQuote with rfl | rfl
    · exact quoted_append_quote within
    · exact quoted_append_quote within
  rw [List.append_assoc, List.singleton_append, List.cons_append]
  simp [firstMatch, table, comment_of_ne other, blanks, solid, identifier, starts, piece]

theorem number_append {text : List Char} (lexeme : Lexeme .number text)
    (apart : Text.Apart following) : number (text ++ following) = some ⟨text, following⟩ := by
  cases lexeme with
  | unsigned leads magnitude =>
      rw [List.cons_append, number_of_isDigit leads]
      exact magnitude_append magnitude apart
  | signed isSign magnitude =>
      have read := magnitude_append magnitude apart
      rcases isSign with rfl | rfl
      · exact congrArg (Option.map (Cut.prepend ['+'])) read
      · exact congrArg (Option.map (Cut.prepend ['-'])) read

/-- What the first character of a number is not. -/
theorem of_number {first : Char} {others : List Char} (lexeme : Lexeme .number (first :: others)) :
    first ≠ '/' ∧ Text.isBlank first = false ∧ startsIdentifier first = false ∧
      first ≠ '"' ∧ first ≠ '\'' := by
  cases lexeme with
  | unsigned leads _ =>
      have solid : Text.isBlank first = false := by
        by_contra blank
        rw [isDigit_of_isBlank (Bool.not_eq_false _ ▸ blank)] at leads
        cases leads
      refine ⟨?_, solid, startsIdentifier_of_isDigit leads, ?_, ?_⟩ <;>
        · rintro rfl
          cases leads
  | signed isSign _ => rcases isSign with rfl | rfl <;> decide

theorem firstMatch_number {text : List Char} (lexeme : Lexeme .number text)
    (piece : number (text ++ following) = some ⟨text, following⟩) :
    firstMatch (text ++ following) = some (some .number, ⟨text, following⟩) := by
  rcases text with _ | ⟨first, others⟩
  · cases lexeme
  obtain ⟨slash, solid, starts, double, single⟩ := of_number lexeme
  rw [List.cons_append] at piece ⊢
  rw [firstMatch_of_solid (comment_of_ne slash _) solid starts double single, piece]
  rfl

/-- A mark stands by itself where it starts neither a comment nor a number. -/
theorem firstMatch_mark {character : Char} (listed : character ∈ marks)
    (noComment : comment (character :: following) = none)
    (noNumber : number (character :: following) = none) :
    firstMatch (character :: following) = some (some .symbol, ⟨[character], following⟩) := by
  obtain ⟨solid, starts, _, double, single, _⟩ := of_mem_marks listed
  rw [firstMatch_of_solid noComment solid starts double single, noNumber, mark,
    if_pos (List.contains_iff_mem.mpr listed)]
  rfl

end Pattern

/-- The text of a token makes this token again where white space follows it. -/
theorem Lexeme.firstMatch {kind : TokenKind} {text following : List Char}
    (lexeme : Lexeme kind text) (apart : Text.Apart following) :
    Pattern.firstMatch (text ++ following) = some (some kind, ⟨text, following⟩) := by
  cases lexeme with
  | identifier starts continues =>
      exact Pattern.firstMatch_identifier starts continues fun next member =>
        Pattern.continuesIdentifier_of_isBlank (apart next member)
  | string isQuote within => exact Pattern.firstMatch_string isQuote within
  | unsigned leads magnitude =>
      have lexeme : Lexeme .number _ := .unsigned leads magnitude
      exact Pattern.firstMatch_number lexeme (Pattern.number_append lexeme apart)
  | signed isSign magnitude =>
      have lexeme : Lexeme .number _ := .signed isSign magnitude
      exact Pattern.firstMatch_number lexeme (Pattern.number_append lexeme apart)
  | mark listed =>
      exact Pattern.firstMatch_mark listed (Pattern.comment_of_apart _ apart)
        (Pattern.number_of_mark listed fun _ => Pattern.magnitude_of_apart apart)

end CollectionSchema
