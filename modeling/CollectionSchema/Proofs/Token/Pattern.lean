import CollectionSchema.Token.Pattern
import Mathlib.Data.List.TakeWhile

/-!
# What the patterns take

A pattern cuts a text in two, and it takes at least one character.  A line feed
behind a text does not change what a pattern takes from the front, with three
exceptions: white space goes on across the line feed, and a block comment or a
string that is still open may find its end there.
-/

set_option autoImplicit false

namespace CollectionSchema

/-! ## Ranges of characters -/

theorem isAlpha_eq (character : Char) :
    character.isAlpha = (character.isUpper || character.isLower) := rfl

theorem isUpper_eq (character : Char) :
    character.isUpper = ('A' ≤ character && character ≤ 'Z') :=
  Bool.decide_and _ _

theorem isLower_eq (character : Char) :
    character.isLower = ('a' ≤ character && character ≤ 'z') := rfl

theorem isDigit_eq (character : Char) :
    character.isDigit = ('0' ≤ character && character ≤ '9') := rfl

/-! ## Cuts -/

namespace Cut

/-- A cut divides a text when it loses nothing of it and takes something. -/
structure Divides (text : List Char) (cut : Cut) : Prop where
  whole : cut.taken ++ cut.left = text
  taken : cut.taken ≠ []

/-- The same cut of a text with more behind it. -/
def extend (more : List Char) (cut : Cut) : Cut := ⟨cut.taken, cut.left ++ more⟩

theorem run_whole (test : Char → Bool) (text : List Char) :
    (run test text).taken ++ (run test text).left = text :=
  List.takeWhile_append_dropWhile

/-- A run does not go past a character that fails its test. -/
theorem run_extend {test : Char → Bool} {stop : Char} (stops : test stop = false)
    (text more : List Char) :
    run test (text ++ stop :: more) = (run test text).extend (stop :: more) := by
  induction text with
  | nil => simp [run, extend, stops]
  | cons first rest ih =>
      simp only [run, extend, mk.injEq] at ih
      obtain ⟨taken, left⟩ := ih
      rcases passes : test first with _ | _
      · simp [run, extend, passes]
      · simp [run, extend, passes, taken, left]

/-- A cut with something put in front of it divides the text with the same in front. -/
theorem divides_prepend {text : List Char} {cut : Cut} (whole : cut.taken ++ cut.left = text)
    (first : Char) (front : List Char) :
    (cut.prepend (first :: front)).Divides (first :: front ++ text) := by
  refine ⟨?_, List.cons_ne_nil _ _⟩
  rw [prepend, List.append_assoc, whole]

theorem Divides.prepend {text : List Char} {cut : Cut} (divides : cut.Divides text)
    (front : List Char) : (cut.prepend front).Divides (front ++ text) := by
  refine ⟨?_, List.append_ne_nil_of_right_ne_nil front divides.taken⟩
  rw [Cut.prepend, List.append_assoc, divides.whole]

theorem Divides.length_lt {text : List Char} {cut : Cut} (divides : cut.Divides text) :
    cut.left.length < text.length := by
  have some := List.length_pos_iff.mpr divides.taken
  rw [← divides.whole, List.length_append]
  omega

end Cut

namespace Pattern

/-! ## Runs with a first character of their own -/

/-- A character that passes one test, and all behind it that pass another. -/
def leading (first others : Char → Bool) : Pattern
  | [] => none
  | character :: rest =>
    if first character then some ((Cut.run others rest).prepend [character]) else none

theorem blanks_eq_leading : blanks = leading Text.isBlank Text.isBlank := by
  funext text
  cases text <;> rfl

theorem identifier_eq_leading :
    identifier = leading startsIdentifier continuesIdentifier := by
  funext text
  cases text <;> rfl

theorem digits_eq_leading : digits = leading Char.isDigit Char.isDigit := by
  funext text
  cases text <;> rfl

/-! ## Every pattern divides the text -/

theorem blockEnd_whole {text : List Char} {cut : Cut} (found : blockEnd text = some cut) :
    cut.taken ++ cut.left = text := by
  induction text using blockEnd.induct generalizing cut with
  | case1 => cases found
  | case2 left =>
      cases found
      rfl
  | case3 character rest other ih =>
      rw [blockEnd.eq_3 character rest other] at found
      obtain ⟨inner, ended, rfl⟩ := Option.map_eq_some_iff.mp found
      exact congrArg (character :: ·) (ih ended)

theorem comment_divides {text : List Char} {cut : Cut} (found : comment text = some cut) :
    cut.Divides text := by
  unfold comment at found
  split at found
  · cases found
    exact Cut.divides_prepend (Cut.run_whole _ _) '/' ['/']
  · obtain ⟨inner, ended, rfl⟩ := Option.map_eq_some_iff.mp found
    exact Cut.divides_prepend (blockEnd_whole ended) '/' ['*']
  · cases found

theorem leading_divides {first others : Char → Bool} {text : List Char} {cut : Cut}
    (found : leading first others text = some cut) : cut.Divides text := by
  unfold leading at found
  split at found
  · cases found
  · split at found
    · cases found
      exact Cut.divides_prepend (Cut.run_whole _ _) _ []
    · cases found

theorem quoted_divides {quote : Char} {text : List Char} {cut : Cut}
    (found : quoted quote text = some cut) : cut.Divides (quote :: text) := by
  unfold quoted at found
  split at found
  · cases found
  case _ closing left ended =>
    cases found
    refine ⟨?_, List.cons_ne_nil _ _⟩
    rw [List.append_assoc, List.singleton_append, ← ended, List.cons_append,
      List.takeWhile_append_dropWhile]

theorem string_divides {text : List Char} {cut : Cut} (found : string text = some cut) :
    cut.Divides text := by
  unfold string at found
  split at found
  · exact quoted_divides found
  · exact quoted_divides found
  · cases found

theorem fraction_whole (text : List Char) :
    (fraction text).taken ++ (fraction text).left = text := by
  unfold fraction
  split
  · exact congrArg ('.' :: ·) (Cut.run_whole _ _)
  · rfl

theorem magnitude_divides {text : List Char} {cut : Cut} (found : magnitude text = some cut) :
    cut.Divides text := by
  unfold magnitude at found
  split at found
  · obtain ⟨inner, read, rfl⟩ := Option.map_eq_some_iff.mp found
    rw [digits_eq_leading] at read
    exact (leading_divides read).prepend ['.']
  · obtain ⟨inner, read, rfl⟩ := Option.map_eq_some_iff.mp found
    have divides := leading_divides (digits_eq_leading ▸ read)
    refine ⟨?_, List.append_ne_nil_of_left_ne_nil divides.taken _⟩
    rw [Cut.prepend, List.append_assoc, fraction_whole, divides.whole]

theorem number_divides {text : List Char} {cut : Cut} (found : number text = some cut) :
    cut.Divides text := by
  unfold number at found
  split at found
  · obtain ⟨inner, read, rfl⟩ := Option.map_eq_some_iff.mp found
    exact (magnitude_divides read).prepend ['+']
  · obtain ⟨inner, read, rfl⟩ := Option.map_eq_some_iff.mp found
    exact (magnitude_divides read).prepend ['-']
  · exact magnitude_divides found

theorem mark_divides {text : List Char} {cut : Cut} (found : mark text = some cut) :
    cut.Divides text := by
  unfold mark at found
  split at found
  · cases found
  · split at found
    · cases found
      exact ⟨rfl, List.cons_ne_nil _ _⟩
    · cases found

/-- The piece at the front of a text is taken by a pattern of the table. -/
theorem exists_of_firstMatch {text : List Char} {kind : Option TokenKind} {cut : Cut}
    (found : firstMatch text = some (kind, cut)) :
    ∃ pattern, (kind, pattern) ∈ table ∧ pattern text = some cut := by
  obtain ⟨entry, member, matched⟩ := List.exists_of_findSome?_eq_some found
  obtain ⟨_, taken, same⟩ := Option.map_eq_some_iff.mp matched
  obtain ⟨rfl, rfl⟩ := Prod.mk.inj same
  exact ⟨entry.2, member, taken⟩

/-- The piece at the front of a text divides it, and it is never the end of the input. -/
theorem firstMatch_divides {text : List Char} {kind : Option TokenKind} {cut : Cut}
    (found : firstMatch text = some (kind, cut)) :
    cut.Divides text ∧ kind ≠ some .endOfInput := by
  obtain ⟨pattern, member, taken⟩ := exists_of_firstMatch found
  simp only [table, List.mem_cons, Prod.mk.injEq, List.not_mem_nil, or_false] at member
  rcases member with ⟨rfl, rfl⟩ | ⟨rfl, rfl⟩ | ⟨rfl, rfl⟩ | ⟨rfl, rfl⟩ | ⟨rfl, rfl⟩ | ⟨rfl, rfl⟩
  · exact ⟨comment_divides taken, nofun⟩
  · exact ⟨leading_divides (blanks_eq_leading ▸ taken), nofun⟩
  · exact ⟨leading_divides (identifier_eq_leading ▸ taken), nofun⟩
  · exact ⟨string_divides taken, nofun⟩
  · exact ⟨number_divides taken, nofun⟩
  · exact ⟨mark_divides taken, nofun⟩

/-- A piece without a token is a comment or white space. -/
theorem of_skip {text : List Char} {cut : Cut} (found : firstMatch text = some (none, cut)) :
    comment text = some cut ∨ blanks text = some cut := by
  obtain ⟨pattern, member, taken⟩ := exists_of_firstMatch found
  simp only [table, List.mem_cons, Prod.mk.injEq, List.not_mem_nil, or_false, true_and,
    reduceCtorEq, false_and] at member
  rcases member with rfl | rfl
  · exact .inl taken
  · exact .inr taken

theorem blanks_taken {text : List Char} {cut : Cut} (found : blanks text = some cut) :
    ∀ character ∈ cut.taken, Text.isBlank character = true := by
  rcases text with _ | ⟨first, rest⟩
  · cases found
  · rw [blanks] at found
    split at found
    case isTrue blank =>
      cases found
      intro character member
      rcases List.mem_cons.mp member with rfl | member
      · exact blank
      · exact List.mem_takeWhile_imp member
    case isFalse => cases found

/-! ## Patterns in front of a line feed -/

/-- Whether a pattern takes the same from the front of a text when a line feed is behind it. -/
def Steady (pattern : Pattern) (text : List Char) : Prop :=
  ∀ more, pattern (text ++ '\n' :: more) = (pattern text).map (Cut.extend ('\n' :: more))

theorem Steady.of_some {pattern : Pattern} {text : List Char} {cut : Cut}
    (found : pattern text = some cut)
    (still : ∀ more, pattern (text ++ '\n' :: more) = some (cut.extend ('\n' :: more))) :
    pattern.Steady text := by
  intro more
  rw [still, found, Option.map_some]

theorem Steady.of_none {pattern : Pattern} {text : List Char} (missed : pattern text = none)
    (still : ∀ more, pattern (text ++ '\n' :: more) = none) : pattern.Steady text := by
  intro more
  rw [still, missed, Option.map_none]

theorem leading_steady {first others : Char → Bool} (feed : first '\n' = false)
    (stops : others '\n' = false) (text : List Char) : (leading first others).Steady text := by
  intro more
  rcases text with _ | ⟨character, rest⟩
  · simp [leading, feed]
  · simp only [leading, List.cons_append]
    split
    · rw [Cut.run_extend stops, Option.map_some]
      rfl
    · rfl

theorem identifier_steady (text : List Char) : Steady identifier text := by
  rw [identifier_eq_leading]
  exact leading_steady rfl rfl text

theorem digits_steady (text : List Char) : Steady digits text := by
  rw [digits_eq_leading]
  exact leading_steady rfl rfl text

theorem fraction_of_ne {first : Char} (other : first ≠ '.') (rest : List Char) :
    fraction (first :: rest) = ⟨[], first :: rest⟩ := by
  simp [fraction, other]

theorem fraction_extend (text more : List Char) :
    fraction (text ++ '\n' :: more) = (fraction text).extend ('\n' :: more) := by
  rcases text with _ | ⟨first, rest⟩
  · rfl
  · by_cases dot : first = '.'
    · subst dot
      exact congrArg (Cut.prepend ['.']) (Cut.run_extend rfl rest more)
    · rw [List.cons_append, fraction_of_ne dot, fraction_of_ne dot]
      rfl

theorem magnitude_of_ne {first : Char} (other : first ≠ '.') (rest : List Char) :
    magnitude (first :: rest) =
      (digits (first :: rest)).map fun whole => (fraction whole.left).prepend whole.taken := by
  simp [magnitude, other]

theorem magnitude_steady (text : List Char) : Steady magnitude text := by
  intro more
  rcases text with _ | ⟨first, rest⟩
  · rfl
  · by_cases dot : first = '.'
    · subst dot
      show (digits (rest ++ '\n' :: more)).map _ = ((digits rest).map _).map _
      rw [digits_steady, Option.map_map, Option.map_map]
      rfl
    · have whole := digits_steady (first :: rest) more
      rw [List.cons_append] at whole ⊢
      rw [magnitude_of_ne dot, magnitude_of_ne dot, whole, Option.map_map, Option.map_map]
      congr 1
      funext cut
      rw [Function.comp_apply, Cut.extend, fraction_extend]
      rfl

theorem number_of_ne {first : Char} (plus : first ≠ '+') (minus : first ≠ '-')
    (rest : List Char) : number (first :: rest) = magnitude (first :: rest) := by
  simp [number, plus, minus]

theorem number_steady (text : List Char) : Steady number text := by
  intro more
  rcases text with _ | ⟨first, rest⟩
  · rfl
  · by_cases plus : first = '+'
    · subst plus
      show (magnitude (rest ++ '\n' :: more)).map _ = ((magnitude rest).map _).map _
      rw [magnitude_steady, Option.map_map, Option.map_map]
      rfl
    · by_cases minus : first = '-'
      · subst minus
        show (magnitude (rest ++ '\n' :: more)).map _ = ((magnitude rest).map _).map _
        rw [magnitude_steady, Option.map_map, Option.map_map]
        rfl
      · have whole := magnitude_steady (first :: rest) more
        rw [List.cons_append] at whole ⊢
        rw [number_of_ne plus minus, number_of_ne plus minus, whole]

theorem mark_steady (text : List Char) : Steady mark text := by
  intro more
  rcases text with _ | ⟨first, rest⟩
  · rfl
  · simp only [mark, List.cons_append]
    split <;> rfl

/-! ## Pieces that may be open at the end of a text -/

theorem blockEnd_append {text : List Char} {cut : Cut} (found : blockEnd text = some cut)
    (more : List Char) : blockEnd (text ++ more) = some (cut.extend more) := by
  induction text using blockEnd.induct generalizing cut with
  | case1 => cases found
  | case2 left =>
      cases found
      rfl
  | case3 character rest other ih =>
      rw [blockEnd.eq_3 character rest other] at found
      obtain ⟨inner, ended, rfl⟩ := Option.map_eq_some_iff.mp found
      rcases rest with _ | ⟨next, rest⟩
      · cases ended
      · have still : ∀ left, character = '*' → next :: (rest ++ more) = '/' :: left → False := by
          rintro left star same
          obtain ⟨slash, _⟩ := List.cons.inj same
          exact other rest star (by rw [slash])
        rw [List.cons_append, List.cons_append, blockEnd.eq_3 _ _ still, ← List.cons_append,
          ih ended]
        rfl

theorem comment_of_ne {first : Char} (other : first ≠ '/') (rest : List Char) :
    comment (first :: rest) = none := by
  simp [comment, other]

theorem comment_of_slash {second : Char} (slash : second ≠ '/') (star : second ≠ '*')
    (rest : List Char) : comment ('/' :: second :: rest) = none := by
  simp [comment, slash, star]

/-- A comment that is not an open block is the same in front of a line feed. -/
theorem comment_steady {text : List Char}
    (closed : comment text = none → ∀ rest, text ≠ '/' :: '*' :: rest) : Steady comment text := by
  rcases text with _ | ⟨first, rest⟩
  · exact .of_none rfl fun _ => rfl
  by_cases slash : first = '/'
  case neg => exact .of_none (comment_of_ne slash rest) fun _ => comment_of_ne slash _
  subst slash
  rcases rest with _ | ⟨second, rest⟩
  · exact .of_none rfl fun _ => rfl
  by_cases line : second = '/'
  · subst line
    refine .of_some rfl fun more => ?_
    rw [List.cons_append, List.cons_append, comment, Cut.run_extend (by decide)]
    rfl
  by_cases block : second = '*'
  · subst block
    rcases ended : blockEnd rest with _ | cut
    · have missed : comment ('/' :: '*' :: rest) = none := congrArg (Option.map _) ended
      exact absurd rfl (closed missed rest)
    · exact .of_some (congrArg (Option.map _) ended) fun more =>
        congrArg (Option.map (Cut.prepend ['/', '*'])) (blockEnd_append ended ('\n' :: more))
  · exact .of_none (comment_of_slash line block rest) fun _ => comment_of_slash line block _

theorem quoted_append {quote : Char} {text : List Char} {cut : Cut}
    (found : quoted quote text = some cut) (more : List Char) :
    quoted quote (text ++ more) = some (cut.extend more) := by
  rw [quoted] at found
  split at found
  · cases found
  case _ closing left ended =>
    cases found
    have parts := List.takeWhile_append_dropWhile (p := (· ≠ quote)) (l := text)
    have shorter : (text.takeWhile (· ≠ quote)).length ≠ text.length := by
      rw [ended] at parts
      have lengths := congrArg List.length parts
      rw [List.length_append, List.length_cons] at lengths
      omega
    rw [quoted, List.dropWhile_append, List.takeWhile_append, ended, if_neg shorter]
    rfl

/-- A string that is closed is the same in front of a line feed. -/
theorem string_steady {text : List Char}
    (closed : string text = none → ∀ first ∈ text.head?, first ≠ '"' ∧ first ≠ '\'') :
    Steady string text := by
  rcases text with _ | ⟨first, rest⟩
  · exact .of_none rfl fun _ => rfl
  rcases found : string (first :: rest) with _ | cut
  · obtain ⟨double, single⟩ := closed found first rfl
    exact .of_none found fun more => by simp [string, double, single]
  · refine .of_some found fun more => ?_
    by_cases double : first = '"'
    · subst double
      exact quoted_append found _
    by_cases single : first = '\''
    · subst single
      exact quoted_append found _
    simp [string, double, single] at found

/-- A first character that is not blank keeps white space away. -/
theorem blanks_steady {text : List Char} {first : Char} (solid : Text.isBlank first = false)
    (head : text.head? = some first) : Steady blanks text := by
  obtain ⟨rest, rfl⟩ := List.head?_eq_some_iff.mp head
  refine .of_none ?_ fun more => ?_ <;> simp [blanks, solid]

theorem findSome?_steady {entries : List (Option TokenKind × Pattern)} {text : List Char}
    (steady : ∀ entry ∈ entries, Steady entry.2 text) (more : List Char) :
    (entries.findSome? fun entry =>
        (entry.2 (text ++ '\n' :: more)).map fun cut => (entry.1, cut)) =
      (entries.findSome? fun entry => (entry.2 text).map fun cut => (entry.1, cut)).map
        (Prod.map id (Cut.extend ('\n' :: more))) := by
  induction entries with
  | nil => rfl
  | cons entry rest ih =>
      have others := ih fun other member => steady other (List.mem_cons_of_mem entry member)
      rw [List.findSome?_cons, List.findSome?_cons, others, steady entry List.mem_cons_self]
      cases entry.2 text <;> rfl

/-- When no pattern looks across a line feed, the piece at the front of a text stays the same. -/
theorem firstMatch_steady {text : List Char} (steady : ∀ entry ∈ table, Steady entry.2 text)
    (more : List Char) :
    firstMatch (text ++ '\n' :: more) =
      (firstMatch text).map (Prod.map id (Cut.extend ('\n' :: more))) :=
  findSome?_steady steady more

end Pattern

end CollectionSchema
