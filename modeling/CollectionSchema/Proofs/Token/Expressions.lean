import CollectionSchema.Proofs.Regex
import CollectionSchema.Proofs.Token.Pattern

/-!
# The patterns as regular expressions

Each pattern takes what a regular expression prefers.  The expressions say where
priorities matter: a block comment is repeated as little as possible, everything else
as much as possible, a sign and a fraction are tried before they are left out, and a
number with digits in front of its dot comes before one without.
-/

set_option autoImplicit false

namespace CollectionSchema

namespace Regex

/-! ## The expressions -/

/-- `(?://[^\n]*|/\*(?s:.*?)\*/)` -/
def comment : Regex :=
  .either (.sequence (literal ['/', '/']) (.repeated true (.allBut '\n')))
    (.sequence (literal ['/', '*']) (.sequence (.repeated false .any) (literal ['*', '/'])))

/-- `\s+` -/
def blanks : Regex := several .blank

/-- `[A-Za-z_.]` -/
def nameStart : CharClass := .within [('A', 'Z'), ('a', 'z'), ('_', '_'), ('.', '.')]

/-- `[A-Za-z0-9_.]` -/
def nameRest : CharClass := .within [('A', 'Z'), ('a', 'z'), ('0', '9'), ('_', '_'), ('.', '.')]

/-- `[A-Za-z_.][A-Za-z0-9_.]*` -/
def identifier : Regex := .sequence (.one nameStart) (.repeated true nameRest)

/-- A quote, characters that are not this quote, and the quote again. -/
def quoted (quote : Char) : Regex :=
  .sequence (.one (.only quote))
    (.sequence (.repeated true (.allBut quote)) (.one (.only quote)))

/-- `(?:"[^"]*"|'[^']*')` -/
def string : Regex := .either (quoted '"') (quoted '\'')

/-- `[0-9]` -/
def digit : CharClass := .within [('0', '9')]

/-- `(?:[0-9]+(?:\.[0-9]*)?|\.[0-9]+)` -/
def magnitude : Regex :=
  .either (.sequence (several digit)
      (optional (.sequence (.one (.only '.')) (.repeated true digit))))
    (.sequence (.one (.only '.')) (several digit))

/-- `[+-]?(?:[0-9]+(?:\.[0-9]*)?|\.[0-9]+)` -/
def number : Regex :=
  .sequence (optional (.one (.within [('+', '+'), ('-', '-')]))) magnitude

/-- `[\[\]?:;@(),{}!~*/%+\-<>&=^|]` -/
def mark : Regex :=
  .one (.within [('[', '['), (']', ']'), ('?', '?'), (':', ':'), (';', ';'), ('@', '@'),
    ('(', '('), (')', ')'), (',', ','), ('\x7b', '\x7b'), ('\x7d', '\x7d'), ('!', '!'),
    ('~', '~'), ('*', '*'), ('/', '/'), ('%', '%'), ('+', '+'), ('-', '-'), ('<', '<'),
    ('>', '>'), ('&', '&'), ('=', '='), ('^', '^'), ('|', '|')])

/-- The expressions in the order in which they are tried, with the kind of token that each makes. -/
def table : List (Option TokenKind × Regex) :=
  [(none, comment), (none, blanks), (some .identifier, identifier), (some .string, string),
    (some .number, number), (some .symbol, mark)]

/-- What the first expression of the table that matches takes from the front of a text. -/
def firstMatch (text : List Char) : Option (Option TokenKind × Cut) :=
  table.findSome? fun entry => (entry.2.front text).map fun cut => (entry.1, cut)

/-! ## Classes -/

open CharClass (covers_nil covers_cons covers_cons_self)

theorem holds_digit : digit.holds = Char.isDigit := by
  funext character
  rw [isDigit_eq, digit, CharClass.holds, covers_cons, covers_nil, Bool.or_false]

theorem holds_nameStart : nameStart.holds = Pattern.startsIdentifier := by
  funext character
  rw [Pattern.startsIdentifier, isAlpha_eq, isUpper_eq, isLower_eq, nameStart, CharClass.holds,
    covers_cons, covers_cons, covers_cons_self, covers_cons_self, covers_nil, Bool.or_false]
  ac_rfl

theorem holds_nameRest : nameRest.holds = Pattern.continuesIdentifier := by
  funext character
  rw [Pattern.continuesIdentifier, Pattern.startsIdentifier, isAlpha_eq, isUpper_eq, isLower_eq,
    isDigit_eq, nameRest, CharClass.holds, covers_cons, covers_cons, covers_cons]
  rw [covers_cons_self, covers_cons_self, covers_nil, Bool.or_false]
  ac_rfl

/-! ## What the expressions prefer -/

/-- A run that starts with a character of its own. -/
theorem front_leading (first others : CharClass) :
    (sequence (.one first) (.repeated true others)).front =
      Pattern.leading first.holds others.holds := by
  funext text
  rw [front_eq_followedBy, followedBy_sequence]
  rcases text with _ | ⟨character, rest⟩
  · rfl
  · rw [followedBy_one_cons, followedBy_greedy_stop, Pattern.leading, Option.map_some]

theorem front_blanks : blanks.front = Pattern.blanks := by
  rw [blanks, several, front_leading, Pattern.blanks_eq_leading]
  rfl

theorem front_identifier : identifier.front = Pattern.identifier := by
  rw [identifier, front_leading, Pattern.identifier_eq_leading, holds_nameStart, holds_nameRest]

/-- The class of the marks holds the listed characters. -/
theorem holds_mark (character : Char) :
    CharClass.holds (.within (Pattern.marks.map fun mark => (mark, mark))) character =
      Pattern.marks.contains character := by
  rw [CharClass.holds]
  induction Pattern.marks with
  | nil => rfl
  | cons first rest ih =>
      rw [List.map_cons, covers_cons_self, ih, List.contains_cons]
      rfl

theorem front_mark : mark.front = Pattern.mark := by
  funext text
  rcases text with _ | ⟨character, rest⟩
  · rfl
  · rw [Pattern.mark, ← holds_mark, front_eq_followedBy, mark, followedBy_one_cons]
    rfl

/-! ## Comments -/

theorem front_blockEnd :
    (sequence (.repeated false .any) (literal ['*', '/'])).followedBy stop = Pattern.blockEnd := by
  funext text
  rw [followedBy_sequence]
  induction text using Pattern.blockEnd.induct with
  | case1 => rfl
  | case2 left =>
      have closing : (literal ['*', '/']).followedBy stop ('*' :: '/' :: left) =
          some ⟨['*', '/'], left⟩ := followedBy_literal ['*', '/'] stop left
      rw [followedBy_lazy_cons, closing, Option.some_or, Pattern.blockEnd]
  | case3 character rest other ih =>
      have open' : ¬ ['*', '/'] <+: character :: rest := by
        rintro ⟨left, same⟩
        obtain ⟨star, slash⟩ := List.cons.inj same
        exact other left star.symm slash.symm
      rw [followedBy_lazy_cons, followedBy_literal_of_not_front stop open', Option.none_or, ih,
        Pattern.blockEnd.eq_3 character rest other]
      rfl

theorem eq_of_pair_front {left right first second : Char} {rest : List Char}
    (front : [left, right] <+: first :: second :: rest) : first = left ∧ second = right := by
  obtain ⟨behind, same⟩ := front
  cases same
  exact ⟨rfl, rfl⟩

theorem front_comment : comment.front = Pattern.comment := by
  funext text
  rw [front_eq_followedBy, comment, followedBy_either, followedBy_sequence, followedBy_sequence,
    front_blockEnd]
  -- The two openings exclude each other, so the text decides which alternative is left.
  rcases text with _ | ⟨first, _ | ⟨second, rest⟩⟩
  · rfl
  · rw [followedBy_literal_of_not_front _ (by simp), followedBy_literal_of_not_front _ (by simp)]
    simp [Pattern.comment]
  by_cases line : first = '/' ∧ second = '/'
  · obtain ⟨rfl, rfl⟩ := line
    have taken : (literal ['/', '/']).followedBy ((repeated true (.allBut '\n')).followedBy stop)
        ('/' :: '/' :: rest) = _ := followedBy_literal _ _ rest
    rw [taken, followedBy_greedy_stop, CharClass.holds_allBut]
    rfl
  rw [followedBy_literal_of_not_front _ fun front => line (eq_of_pair_front front),
    Option.none_or]
  by_cases block : first = '/' ∧ second = '*'
  · obtain ⟨rfl, rfl⟩ := block
    exact followedBy_literal _ _ rest
  · rw [followedBy_literal_of_not_front _ fun front => block (eq_of_pair_front front)]
    by_cases slash : first = '/'
    · subst slash
      rw [Pattern.comment_of_slash (fun same => line ⟨rfl, same⟩) fun same => block ⟨rfl, same⟩]
    · rw [Pattern.comment_of_ne slash]

/-- A greedy run up to a quote with this quote behind it. -/
theorem followedBy_closing (quote : Char) (text : List Char) :
    (repeated true (.allBut quote)).followedBy ((one (.only quote)).followedBy stop) text =
      match text.dropWhile (· ≠ quote) with
      | [] => none
      | closing :: left => some ⟨text.takeWhile (· ≠ quote) ++ [closing], left⟩ := by
  induction text with
  | nil => rfl
  | cons first rest ih =>
      rw [followedBy_greedy_cons, followedBy_one_cons, CharClass.holds_allBut,
        CharClass.holds_only, ih]
      by_cases same : first = quote
      · subst same
        simp [stop, Cut.prepend]
      · simp only [ne_eq, same, not_false_eq_true, decide_true, if_true, decide_false,
          Bool.false_eq_true, if_false, Option.or_none, List.dropWhile_cons_of_pos,
          List.takeWhile_cons_of_pos]
        cases rest.dropWhile (· ≠ quote) <;> rfl

theorem followedBy_quoted (quote first : Char) (rest : List Char) :
    (quoted quote).followedBy stop (first :: rest) =
      if first = quote then Pattern.quoted quote rest else none := by
  rw [quoted, followedBy_sequence, followedBy_sequence, followedBy_one_cons, followedBy_closing,
    CharClass.holds_only, Pattern.quoted]
  by_cases same : first = quote
  · subst same
    rw [if_pos (decide_eq_true rfl), if_pos rfl]
    cases rest.dropWhile (· ≠ first) <;> rfl
  · rw [if_neg (by simpa using same), if_neg same]

theorem front_string : string.front = Pattern.string := by
  funext text
  rw [front_eq_followedBy, string, followedBy_either]
  rcases text with _ | ⟨first, rest⟩
  · rfl
  · rw [followedBy_quoted, followedBy_quoted]
    by_cases double : first = '"'
    · subst double
      rw [if_pos rfl, if_neg (by decide), Option.or_none]
      rfl
    · by_cases single : first = '\''
      · subst single
        rfl
      · rw [if_neg double, if_neg single]
        simp [Pattern.string, double, single]

/-! ## Numbers -/

theorem followedBy_fraction :
    (optional (.sequence (.one (.only '.')) (.repeated true digit))).followedBy stop =
      fun left => some (Pattern.fraction left) := by
  funext text
  rw [followedBy_optional, followedBy_sequence]
  rcases text with _ | ⟨first, rest⟩
  · rfl
  · rw [followedBy_one_cons, followedBy_greedy_stop, CharClass.holds_only, holds_digit]
    by_cases dot : first = '.'
    · subst dot
      rfl
    · rw [if_neg (by simpa using dot), Pattern.fraction_of_ne dot]
      rfl

/-- Digits with something behind them that is always there. -/
theorem followedBy_several_digit (next : List Char → Cut) (text : List Char) :
    (several digit).followedBy (fun left => some (next left)) text =
      (Pattern.digits text).map fun whole => (next whole.left).prepend whole.taken := by
  rw [several, followedBy_sequence]
  rcases text with _ | ⟨first, rest⟩
  · rfl
  · rw [followedBy_one_cons, followedBy_greedy, holds_digit, Pattern.digits]
    by_cases held : first.isDigit = true
    · rw [if_pos held, if_pos held]
      rfl
    · rw [if_neg held, if_neg held]
      rfl

theorem followedBy_magnitude : magnitude.followedBy stop = Pattern.magnitude := by
  funext text
  rw [magnitude, followedBy_either, followedBy_sequence, followedBy_sequence, followedBy_fraction,
    followedBy_several_digit]
  rcases text with _ | ⟨first, rest⟩
  · rfl
  · rw [followedBy_one_cons, CharClass.holds_only]
    by_cases dot : first = '.'
    · subst dot
      have several_stop : (several digit).followedBy stop rest = Pattern.digits rest := by
        show (several digit).followedBy (fun left => some ⟨[], left⟩) rest = _
        rw [followedBy_several_digit]
        simp [Cut.prepend]
      rw [several_stop]
      rfl
    · rw [if_neg (by simpa using dot), Option.or_none, Pattern.magnitude_of_ne dot]

theorem front_number : number.front = Pattern.number := by
  funext text
  rw [front_eq_followedBy, number, followedBy_sequence, followedBy_magnitude, followedBy_optional]
  rcases text with _ | ⟨first, rest⟩
  · rfl
  · rw [followedBy_one_cons]
    simp only [CharClass.holds, covers_cons_self, covers_nil, Bool.or_false]
    by_cases plus : first = '+'
    · subst plus
      exact Option.or_none
    · by_cases minus : first = '-'
      · subst minus
        exact Option.or_none
      · rw [Pattern.number_of_ne plus minus, if_neg (by simp [plus, minus])]
        rfl

/-! ## The table -/

/-- The table of expressions takes what the table of patterns takes. -/
theorem firstMatch_eq : firstMatch = Pattern.firstMatch := by
  funext text
  simp only [firstMatch, Pattern.firstMatch, table, Pattern.table, List.findSome?_cons,
    List.findSome?_nil, front_comment, front_blanks, front_identifier, front_string, front_number,
    front_mark]

end Regex

end CollectionSchema
