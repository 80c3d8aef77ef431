import CollectionSchema.Proofs.Exchange
import CollectionSchema.Proofs.Peg.Composition
import CollectionSchema.Proofs.Peg.Reading
import CollectionSchema.Proofs.Syntax.Regular
import CollectionSchema.Proofs.Token.Spacing

/-!
# Programs of texts are regular

The names and strings of a program are texts of tokens, so their form is what the patterns
of tokens allow.  The rest follows from the order of alternatives: what stands behind
others in a choice is read only where these fail.  For a word at the front it is enough
that the alternatives in front ask for one token.  For a call of `return` or `throw` with
a single argument it takes more: the argument with its parentheses is an expression, so
the statement of that name would not have failed (`EnclosedAt.not_fails`).
-/

set_option autoImplicit false

namespace CollectionSchema

namespace Peg

open Phrase (behind before between braced separated)

variable {α β : Type} {name : RuleName} {tokens : List Token} {taken : Nat}

/-! ## Texts of tokens -/

/-- Every token but the end of the input has a text of its kind. -/
def Lexed (tokens : List Token) : Prop :=
  ∀ token ∈ tokens, token.isEnd = false → Lexeme token.kind token.lexeme.toList

theorem Lexed.drop (lexed : Lexed tokens) (count : Nat) : Lexed (tokens.drop count) :=
  fun token member => lexed token (List.mem_of_mem_drop member)

theorem Lexed.tail {first : Token} {rest : List Token} (lexed : Lexed (first :: rest)) :
    Lexed rest :=
  lexed.drop 1

section Names

variable {means : {α : Type} → Nonterminal α → α → List Token → Nat → Prop}

/-- An identifier that was read is a name, and it is the first token. -/
theorem name_of_meets {text : String}
    (meets : (Phrase.token .identifier).Meets means name text tokens taken) :
    (∃ token ∈ tokens.head?, token.isWord text = true) ∧ (Lexed tokens → IsName text) := by
  obtain ⟨_, token, head, read⟩ := meets
  obtain ⟨kind, rfl⟩ : token.kind = .identifier ∧ token.lexeme = text := by
    simpa [Terminal.read] using read
  refine ⟨⟨token, head, isWord_iff.mpr ⟨kind, rfl⟩⟩, fun lexed => ?_⟩
  have lexeme := lexed token (List.mem_of_mem_head? head) (by rw [Token.isEnd, kind]; rfl)
  rwa [kind] at lexeme

/-- A string that was read has its quotes. -/
theorem quoted_of_meets {text : String}
    (meets : (Phrase.token .string).Meets means name text tokens taken) (lexed : Lexed tokens) :
    IsQuoted text := by
  obtain ⟨_, token, head, read⟩ := meets
  obtain ⟨kind, rfl⟩ : token.kind = .string ∧ token.lexeme = text := by
    simpa [Terminal.read] using read
  have lexeme := lexed token (List.mem_of_mem_head? head) (by rw [Token.isEnd, kind]; rfl)
  rwa [kind] at lexeme

/-- What holds of each item of a row at tokens with texts of their kinds holds of all items. -/
theorem InRow.forall_lexed {part : α → List Token → Nat → Prop} {holds : α → Prop} {items : List α}
    (row : InRow part items tokens taken) (lexed : Lexed tokens)
    (each : ∀ item tokens taken, part item tokens taken → Lexed tokens → holds item) :
    ∀ item ∈ items, holds item := by
  induction row with
  | nil => exact nofun
  | cons first _ ih => exact List.forall_mem_cons.mpr ⟨each _ _ _ first lexed, ih (lexed.drop _)⟩

theorem forall_of_braced {body : Phrase α} {holds : α → Prop} {items : List α}
    (meets : (Phrase.braced body).Meets means name items tokens taken) (lexed : Lexed tokens)
    (each : ∀ item tokens taken, body.Meets means name item tokens taken → Lexed tokens →
      holds item) :
    ∀ item ∈ items, holds item := by
  obtain ⟨_, row⟩ := meets.of_braced
  exact row.forall_lexed (lexed.drop 1) each

theorem forall_of_separated {body : Phrase α} {holds : α → Prop} {items : List α}
    (meets : (Phrase.separated body).Meets means name items tokens taken) (lexed : Lexed tokens)
    (each : ∀ item tokens taken, body.Meets means name item tokens taken → Lexed tokens →
      holds item) :
    ∀ item ∈ items, holds item := by
  rcases meets.of_separated with rfl | ⟨first, others, front, _, rfl, _, one, row⟩
  · exact nofun
  · refine List.forall_mem_cons.mpr ⟨each _ _ _ one lexed, ?_⟩
    refine row.forall_lexed (lexed.drop front) fun item tokens _ inner lexed => ?_
    obtain ⟨_, _, inner⟩ := inner.of_behind
    exact each _ _ _ inner (lexed.drop 1)

theorem forall_of_enclosed {body : Phrase α} {holds : α → Prop} {items : List α}
    (meets : (between '(' ')' (separated body)).Meets means name items tokens taken)
    (lexed : Lexed tokens)
    (each : ∀ item tokens taken, body.Meets means name item tokens taken → Lexed tokens →
      holds item) :
    ∀ item ∈ items, holds item := by
  obtain ⟨_, _, _, rfl, _, inner, _⟩ := meets.of_between
  exact forall_of_separated inner lexed.tail each

end Names

/-! ## What is at the front of a value -/

/-- An expression in parentheses stands at the front of some tokens. -/
def EnclosedAt (tokens : List Token) : Prop :=
  ∃ first rest inner count, tokens = first :: rest ∧ first.isSymbol '(' = true ∧
    Nonterminal.expression.Matches inner rest count ∧
    ∃ last ∈ (rest.drop count).head?, last.isSymbol ')' = true

theorem EnclosedAt.not_fails (enclosed : EnclosedAt tokens) :
    ¬ Nonterminal.expression.Fails tokens := by
  intro fails
  obtain ⟨first, rest, inner, count, rfl, opening, ⟨_, run⟩, last, there, closing⟩ := enclosed
  obtain ⟨others, behind⟩ := List.head?_eq_some_iff.mp there
  have reads : (between '(' ')' (.reference .expression)).Reads .value (first :: rest) inner
      (1 + (count + 1)) :=
    .behind (read_mark_iff.mpr opening)
      (.before (.reference ⟨_, run⟩) behind (read_mark_iff.mpr closing))
  rcases Phrase.Fails.of_sequence (Phrase.Fails.of_map fails) with missed | ⟨_, _, _, missed⟩
  · -- The value in parentheses is the last alternative.
    have alternatives :=
      missed.reference.of_choice.2.of_choice.2.of_choice.2.of_choice.2.of_choice.2
    exact reads.not_fails alternatives.of_located
  · exact Phrase.not_fails_optional missed

/-- The only argument of a call is in parentheses. -/
theorem enclosedAt_of_alone
    {means : {α : Type} → Nonterminal α → α → List Token → Nat → Prop} {arguments : List Expression}
    (meets : (between '(' ')' (separated (.reference .expression))).Meets means name arguments
      tokens taken) (alone : arguments.length = 1) : EnclosedAt tokens := by
  obtain ⟨opening, rest, _, rfl, isOpening, inner, last, there, isClosing⟩ := meets.of_between
  rcases inner.of_separated with rfl | ⟨first, others, front, _, rfl, rfl, one, row⟩
  · cases alone
  · obtain rfl : others = [] := List.length_eq_zero_iff.mp (Nat.succ.inj alone)
    cases row
    exact ⟨opening, rest, first, front, rfl, isOpening, one.1, last, there, isClosing⟩

/-- The word that a value begins with is the first token, and behind the name of a function with one
argument an expression in parentheses stands. -/
structure ValueMeets (value : Value) (tokens : List Token) : Prop where
  word : ∀ word ∈ value.word?, ∃ token ∈ tokens.head?, token.isWord word = true
  single : ∀ position callee arguments, value = .call position callee arguments →
    arguments.length = 1 → EnclosedAt (tokens.drop 1)

/-- What holds of the values of the symbols, in view of the tokens from their first one on. -/
def Nonterminal.Settles : {α : Type} → Nonterminal α → α → List Token → Nat → Prop
  | _, .declaration, made, tokens, _ => Lexed tokens → made.Regular
  | _, .collection, made, tokens, _ => Lexed tokens → made.Regular
  | _, .item, made, tokens, _ => Lexed tokens → made.Regular
  | _, .field, made, tokens, _ => Lexed tokens → made.Regular
  | _, .index, made, tokens, _ => Lexed tokens → made.Regular
  | _, .indexField, made, tokens, _ => Lexed tokens → IsName made.name
  | _, .function, made, tokens, _ => Lexed tokens → made.Regular
  | _, .decorator, made, tokens, _ => Lexed tokens → made.Regular
  | _, .type, made, tokens, _ | _, .mapType, made, tokens, _
  | _, .objectType, made, tokens, _ => Lexed tokens → made.Regular
  | _, .arraySuffix, _, _, _ => True
  | _, .statement, made, tokens, _ | _, .compound, made, tokens, _
  | _, .conditional, made, tokens, _ | _, .whileLoop, made, tokens, _
  | _, .forLoop, made, tokens, _ => Lexed tokens → made.Regular
  | _, .simple, made, tokens, _ => Lexed tokens → made.small.Regular
  | _, .small, made, tokens, _ => Lexed tokens → made.Regular
  | _, .letBinding, made, tokens, _ => Lexed tokens → made.Regular
  | _, .branch, made, tokens, _ => Lexed tokens → made.Regular
  | _, .expression, made, tokens, _ =>
      ValueMeets made.left tokens ∧ (Lexed tokens → made.Regular)
  | _, .value, made, tokens, _ => ValueMeets made tokens ∧ (Lexed tokens → made.Regular)
  | _, .call, made, tokens, _ => ValueMeets made tokens ∧
      (Lexed tokens → (∀ word ∈ made.word?, IsNoTruth word) → made.Regular)

/-- Where neither of the two truth values is, a word at the front is none of them. -/
theorem isNoTruth_of_fails {build : Position → Bool → Value} {word : String}
    (fails : (Phrase.located build (.token (.either "true" "false"))).Fails name tokens)
    (here : ∃ token ∈ tokens.head?, token.isWord word = true) : IsNoTruth word := by
  obtain ⟨token, head, is⟩ := here
  have unread := fails.of_located.of_token token head
  constructor
  · rintro rfl
    simp [Terminal.read, is] at unread
  · rintro rfl
    simp only [Terminal.read, is, if_true] at unread
    split at unread <;> cases unread

/-- Where a word in front of an expression fails, the word is not there, or the expression is
not. -/
theorem not_enclosedAt_of_fails {spelling : String} {build : Expression → SmallStatement}
    (fails : (Phrase.map build (behind (.word spelling) (.reference .expression))).Fails name
      tokens)
    (here : ∃ token ∈ tokens.head?, token.isWord spelling = true) :
    ¬ EnclosedAt (tokens.drop 1) := by
  intro enclosed
  obtain ⟨token, head, is⟩ := here
  obtain ⟨rest, rfl⟩ := List.head?_eq_some_iff.mp head
  exact enclosed.not_fails (fails.of_map.of_behind (read_word_iff.mpr is)).reference

theorem regular_of_between {expression : Expression}
    (meets : (between '(' ')' (.reference .expression)).Meets Nonterminal.Settles name expression
      tokens taken) (lexed : Lexed tokens) : expression.Regular := by
  obtain ⟨_, _, _, rfl, _, ⟨_, _, regular⟩, _⟩ := meets.of_between
  exact regular lexed.tail

theorem regular_of_braced {statements : List Statement}
    (meets : (braced (.reference .statement)).Meets Nonterminal.Settles name statements tokens
      taken)
    (lexed : Lexed tokens) : StatementsRegular statements :=
  statementsRegular_iff.mpr (forall_of_braced meets lexed fun _ _ _ part => part.2)

/-- An arm that may be missing is regular where it is not. -/
theorem regular_getD {arm : Option Branch} (regular : ∀ branch ∈ arm, branch.Regular) :
    (arm.getD .absent).Regular := by
  cases arm with
  | none => trivial
  | some branch => exact regular branch rfl

/-- What is read as an expression behind all other small statements is none of these. -/
theorem standsAlone_of_fails {expression : Expression} (meets : ValueMeets expression.left tokens)
    {stop : Unit → SmallStatement} {give fling : Expression → SmallStatement}
    (noBreak : (Phrase.map stop (.token (.word "break"))).Fails name tokens)
    (noReturn : (Phrase.map give (behind (.word "return") (.reference .expression))).Fails name
      tokens)
    (noThrow : (Phrase.map fling (behind (.word "throw") (.reference .expression))).Fails name
      tokens) : expression.StandsAlone := by
  constructor
  · intro word
    obtain ⟨token, head, is⟩ := meets.word "break" word
    have unread := noBreak.of_map.of_token token head
    rw [read_word_iff.mpr is] at unread
    cases unread
  · intro position callee arguments same which one
    have here := meets.word callee (by rw [same]; rfl)
    have enclosed := meets.single position callee arguments same one
    rcases which with rfl | rfl
    · exact not_enclosedAt_of_fails noReturn here enclosed
    · exact not_enclosedAt_of_fails noThrow here enclosed

/-- A value without a word in front meets nothing. -/
theorem ValueMeets.of_none {value : Value} (none : value.word? = none) :
    ValueMeets value tokens := by
  refine ⟨by simp [none], ?_⟩
  rintro position callee arguments rfl
  cases none

/-! ## From the parts of a phrase to the symbol -/

/-- The phrase that defines a symbol makes only values of which this holds, if it holds of the
values of the symbols in the phrase. -/
def Nonterminal.Inherits (symbol : Nonterminal α) : Prop :=
  ∀ (made : α) (tokens : List Token) (taken : Nat),
    (definition symbol).Meets Nonterminal.Settles symbol.name made tokens taken →
      symbol.Settles made tokens taken

/-! ### Types and fields -/

theorem decorator_inherits : Nonterminal.decorator.Inherits := by
  intro made tokens taken meets lexed
  obtain ⟨_, ⟨word, argument⟩, rfl, inner⟩ := meets
  obtain ⟨_, rfl, _, _, rfl, _, optional⟩ := inner.of_behind
  cases argument with
  | none => exact ⟨Nat.zero_le _, by simp⟩
  | some text =>
      obtain ⟨_, _, _, same, _, named, _⟩ := Phrase.Meets.of_between optional
      have rest : Lexed (_ :: _) := same ▸ (lexed.drop 1).drop _
      exact ⟨Nat.le_refl _, List.forall_mem_singleton.mpr ((name_of_meets named).2 rest.tail)⟩

theorem field_inherits : Nonterminal.field.Inherits := by
  intro made tokens taken meets lexed
  obtain ⟨_, ⟨decorators, text, optional, type⟩, rfl, _, _, rfl, row, _, _, rfl, named,
    flagged⟩ := meets
  refine ⟨row.forall_lexed lexed fun _ _ _ part => part.2,
    (name_of_meets named).2 (lexed.drop _), ?_⟩
  rcases flagged with ⟨_, _, _, _, inner⟩ | ⟨_, inner⟩
  · obtain ⟨_, _, _, settles⟩ := inner.of_behind
    exact settles ((((lexed.drop _).drop _).drop 1).drop 1)
  · obtain ⟨_, _, _, settles⟩ := inner.of_behind
    exact settles (((lexed.drop _).drop _).drop 1)

theorem type_inherits : Nonterminal.type.Inherits := by
  intro made tokens taken meets lexed
  rcases meets with
    ⟨_, _, rfl, _⟩ | ⟨noBasic, ⟨_, settles⟩ | ⟨_, ⟨_, settles⟩ | ⟨_, _, text, rfl, named⟩⟩⟩
  · trivial
  · exact settles lexed
  · exact settles lexed
  · obtain ⟨⟨token, head, is⟩, isName⟩ := name_of_meets named
    refine ⟨isName lexed, ?_⟩
    -- An array suffix may be missing, so it was the basic type that failed.
    rcases noBasic.of_located.of_sequence with missed | ⟨_, _, _, missed⟩
    · obtain ⟨kind, rfl⟩ := isWord_iff.mp is
      simpa [Terminal.read, kind] using missed.of_token token head
    · exact absurd missed Phrase.not_fails_optional

theorem mapType_inherits : Nonterminal.mapType.Inherits := by
  intro made tokens taken meets lexed
  obtain ⟨_, ⟨key, value⟩, rfl, inner⟩ := meets
  obtain ⟨_, rfl, enclosed⟩ := inner.of_behind
  obtain ⟨_, _, _, same, _, ⟨_, _, rfl, _, later⟩, _⟩ := enclosed.of_between
  obtain ⟨_, rfl, _, settles⟩ := later.of_behind
  have rest := lexed.drop 1
  rw [same] at rest
  exact settles ((rest.tail.drop _).drop 1)

theorem objectType_inherits : Nonterminal.objectType.Inherits := by
  intro made tokens taken meets lexed
  obtain ⟨_, fields, rfl, body⟩ := meets
  refine fieldsRegular_iff.mpr (forall_of_braced body lexed fun _ _ _ part lexed => ?_)
  obtain ⟨_, _, _, settles⟩ := part.of_before
  exact settles lexed

theorem arraySuffix_inherits : Nonterminal.arraySuffix.Inherits := by
  intro made tokens taken _
  trivial

/-! ### Values and expressions -/

theorem value_inherits : Nonterminal.value.Inherits := by
  intro made tokens taken meets
  rcases meets with ⟨_, _, rfl, _⟩ | ⟨_, ⟨_, written, rfl, read⟩ | ⟨_, ⟨_, _, rfl, _⟩ |
    ⟨noTruth, ⟨_, fronts, settles⟩ | ⟨_, ⟨_, text, rfl, named⟩ | ⟨_, _, inner, rfl, between⟩⟩⟩⟩⟩
  · exact ⟨.of_none rfl, fun _ => trivial⟩
  · exact ⟨.of_none rfl, quoted_of_meets read⟩
  · exact ⟨.of_none rfl, fun _ => trivial⟩
  · refine ⟨fronts, fun lexed => settles lexed fun word is => ?_⟩
    exact isNoTruth_of_fails noTruth (fronts.word word is)
  · obtain ⟨here, isName⟩ := name_of_meets named
    refine ⟨⟨?_, by simp⟩, fun lexed => ⟨isName lexed, isNoTruth_of_fails noTruth here⟩⟩
    rintro _ ⟨⟩
    exact here
  · exact ⟨.of_none rfl, fun lexed => regular_of_between between lexed⟩

theorem call_inherits : Nonterminal.call.Inherits := by
  intro made tokens taken meets
  obtain ⟨_, ⟨callee, arguments⟩, rfl, _, _, rfl, named, between⟩ := meets
  obtain ⟨here, isName⟩ := name_of_meets named
  refine ⟨⟨?_, ?_⟩, fun lexed noTruth => ?_⟩
  · rintro _ ⟨⟩
    exact here
  · rintro _ _ _ ⟨⟩ alone
    obtain ⟨rfl, _⟩ := named
    exact enclosedAt_of_alone between alone
  · refine ⟨isName lexed, noTruth callee rfl, ?_⟩
    exact argumentsRegular_iff.mpr
      (forall_of_enclosed between (lexed.drop _) fun _ _ _ part => part.2.2)

theorem expression_inherits : Nonterminal.expression.Inherits := by
  intro made tokens taken meets
  obtain ⟨⟨left, operation⟩, rfl, _, _, rfl, ⟨_, fronts, settles⟩, right⟩ := meets
  cases operation with
  | none => exact ⟨fronts, fun lexed => ⟨rfl, settles lexed⟩⟩
  | some operation =>
      obtain ⟨_, _, _, _, _, _, regular⟩ := right
      exact ⟨fronts, fun lexed => ⟨rfl, settles lexed, regular ((lexed.drop _).drop _)⟩⟩

/-! ### Statements -/

theorem small_inherits : Nonterminal.small.Inherits := by
  intro made tokens taken meets lexed
  rcases meets with ⟨_, rfl, _⟩ | ⟨noBreak, ⟨_, rfl, inner⟩ | ⟨noReturn, ⟨_, rfl, inner⟩ |
    ⟨noThrow, ⟨_, rfl, _, settles⟩ | ⟨_, _, rfl, _, fronts, settles⟩⟩⟩⟩
  · trivial
  · obtain ⟨_, _, _, _, settles⟩ := inner.of_behind
    exact settles (lexed.drop 1)
  · obtain ⟨_, _, _, _, settles⟩ := inner.of_behind
    exact settles (lexed.drop 1)
  · exact settles lexed
  · exact ⟨settles lexed, standsAlone_of_fails fronts noBreak noReturn noThrow⟩

theorem letBinding_inherits : Nonterminal.letBinding.Inherits := by
  intro made tokens taken meets lexed
  obtain ⟨_, ⟨text, value⟩, rfl, inner⟩ := meets
  obtain ⟨_, rfl, _, _, rfl, named, later⟩ := inner.of_behind
  obtain ⟨_, _, _, _, settles⟩ := later.of_behind
  exact ⟨(name_of_meets named).2 (lexed.drop 1), settles (((lexed.drop 1).drop _).drop 1)⟩

theorem simple_inherits : Nonterminal.simple.Inherits := by
  intro made tokens taken meets lexed
  obtain ⟨_, _, rfl, inner⟩ := meets
  obtain ⟨_, _, _, settles⟩ := inner.of_before
  exact settles lexed

theorem statement_inherits : Nonterminal.statement.Inherits := by
  intro made tokens taken meets lexed
  rcases meets with ⟨_, settles⟩ | ⟨_, _, rfl, _, settles⟩
  · exact settles lexed
  · exact settles lexed

theorem compound_inherits : Nonterminal.compound.Inherits := by
  intro made tokens taken meets lexed
  rcases meets with ⟨_, settles⟩ | ⟨_, ⟨_, settles⟩ | ⟨_, _, settles⟩⟩
  · exact settles lexed
  · exact settles lexed
  · exact settles lexed

theorem conditional_inherits : Nonterminal.conditional.Inherits := by
  intro made tokens taken meets lexed
  obtain ⟨_, ⟨condition, thenBranch, elseBranch⟩, rfl, inner⟩ := meets
  obtain ⟨_, rfl, _, _, rfl, head, _, _, rfl, thenMeets, elseMeets⟩ := inner.of_behind
  have rest := (lexed.drop 1).drop
  refine ⟨regular_of_between head (lexed.drop 1), ?_, ?_⟩
  · refine regular_getD fun arm there => ?_
    subst there
    exact thenMeets.2 (rest _)
  · refine regular_getD fun arm there => ?_
    subst there
    obtain ⟨_, _, _, settles⟩ := Phrase.Meets.of_behind elseMeets
    exact settles (((rest _).drop _).drop 1)

theorem branch_inherits : Nonterminal.branch.Inherits := by
  intro made tokens taken meets lexed
  rcases meets with ⟨_, rfl, body⟩ | ⟨_, _, rfl, _, settles⟩
  · exact regular_of_braced body lexed
  · exact settles lexed

theorem whileLoop_inherits : Nonterminal.whileLoop.Inherits := by
  intro made tokens taken meets lexed
  obtain ⟨_, ⟨condition, statements⟩, rfl, inner⟩ := meets
  obtain ⟨_, rfl, _, _, rfl, head, body⟩ := inner.of_behind
  exact ⟨regular_of_between head (lexed.drop 1),
    regular_of_braced body ((lexed.drop 1).drop _)⟩

theorem forLoop_inherits : Nonterminal.forLoop.Inherits := by
  intro made tokens taken meets lexed
  obtain ⟨_, ⟨⟨init, condition, post⟩, statements⟩, rfl, inner⟩ := meets
  obtain ⟨_, rfl, _, _, rfl, head, body⟩ := inner.of_behind
  obtain ⟨_, _, _, same, _, ⟨_, _, rfl, first, _, _, rfl, second, third⟩, _⟩ := head.of_between
  have rest : Lexed (_ :: _) := same ▸ lexed.drop 1
  obtain ⟨_, rfl, start⟩ := first.of_before
  obtain ⟨_, rfl, _, _, regular⟩ := second.of_before
  refine ⟨?_, regular (rest.tail.drop _), third.2.2 ((rest.tail.drop _).drop _),
    regular_of_braced body ((lexed.drop 1).drop _)⟩
  rcases start with ⟨_, rfl, _, settles⟩ | ⟨_, _, rfl, _, _, settles⟩
  · exact settles rest.tail
  · exact settles rest.tail

/-! ### Declarations -/

theorem declaration_inherits : Nonterminal.declaration.Inherits := by
  intro made tokens taken meets lexed
  rcases meets with ⟨_, rfl, _, settles⟩ | ⟨_, _, rfl, _, settles⟩
  · exact settles lexed
  · exact settles lexed

theorem collection_inherits : Nonterminal.collection.Inherits := by
  intro made tokens taken meets lexed
  obtain ⟨_, ⟨decorators, text, items⟩, rfl, _, _, rfl, row, inner⟩ := meets
  obtain ⟨_, rfl, _, _, rfl, named, body⟩ := inner.of_behind
  exact ⟨row.forall_lexed lexed fun _ _ _ part => part.2,
    (name_of_meets named).2 ((lexed.drop _).drop 1),
    forall_of_braced body (((lexed.drop _).drop 1).drop _) fun _ _ _ part => part.2⟩

theorem item_inherits : Nonterminal.item.Inherits := by
  intro made tokens taken meets lexed
  rcases meets with ⟨_, rfl, field⟩ | ⟨_, ⟨_, rfl, _, settles⟩ | ⟨_, _, rfl, index⟩⟩
  · obtain ⟨_, _, _, settles⟩ := field.of_before
    exact settles lexed
  · exact settles lexed
  · obtain ⟨_, _, _, settles⟩ := index.of_before
    exact settles lexed

theorem index_inherits : Nonterminal.index.Inherits := by
  intro made tokens taken meets lexed
  obtain ⟨_, ⟨plain, fields⟩, rfl, inner⟩ := meets
  obtain ⟨_, rfl, _, _, rfl, _, enclosed⟩ := inner.of_behind
  exact forall_of_enclosed enclosed ((lexed.drop 1).drop _) fun _ _ _ part => part.2

theorem indexField_inherits : Nonterminal.indexField.Inherits := by
  intro made tokens taken meets lexed
  rcases meets with ⟨_, ⟨text, order⟩, rfl, enclosed⟩ | ⟨_, _, _, rfl, named⟩
  · obtain ⟨_, _, _, rfl, _, ⟨_, _, rfl, named, _⟩, _⟩ := enclosed.of_between
    exact (name_of_meets named).2 lexed.tail
  · exact (name_of_meets named).2 lexed

theorem function_inherits : Nonterminal.function.Inherits := by
  intro made tokens taken meets lexed
  obtain ⟨_, ⟨decorators, text, parameters, result, statements⟩, rfl, _, _, rfl, row, _, _, rfl,
    named, _, _, rfl, fields, _, _, rfl, returns, body⟩ := meets
  refine ⟨row.forall_lexed lexed fun _ _ _ part => part.2, ?_,
    forall_of_enclosed fields ((lexed.drop _).drop _) fun _ _ _ part => part.2, ?_,
    forall_of_braced body ((((lexed.drop _).drop _).drop _).drop _) fun _ _ _ part => part.2⟩
  · rcases named with inner | ⟨_, plain⟩
    · obtain ⟨_, _, plain⟩ := inner.of_behind
      exact (name_of_meets plain).2 ((lexed.drop _).drop 1)
    · exact (name_of_meets plain).2 (lexed.drop _)
  · rintro type ⟨⟩
    obtain ⟨_, _, _, settles⟩ := Phrase.Meets.of_behind returns
    exact settles ((((lexed.drop _).drop _).drop _).drop 1)

/-- The phrase of each symbol makes only values of which this holds. -/
theorem definition_settles {α : Type} (symbol : Nonterminal α) : symbol.Inherits := by
  cases symbol with
  | declaration => exact declaration_inherits
  | collection => exact collection_inherits
  | item => exact item_inherits
  | field => exact field_inherits
  | index => exact index_inherits
  | indexField => exact indexField_inherits
  | function => exact function_inherits
  | decorator => exact decorator_inherits
  | type => exact type_inherits
  | mapType => exact mapType_inherits
  | objectType => exact objectType_inherits
  | arraySuffix => exact arraySuffix_inherits
  | statement => exact statement_inherits
  | compound => exact compound_inherits
  | simple => exact simple_inherits
  | small => exact small_inherits
  | letBinding => exact letBinding_inherits
  | conditional => exact conditional_inherits
  | branch => exact branch_inherits
  | whileLoop => exact whileLoop_inherits
  | forLoop => exact forLoop_inherits
  | expression => exact expression_inherits
  | value => exact value_inherits
  | call => exact call_inherits

end Peg

open Peg (Lexed)

/-! ## Programs -/

/-- The tokens of a text have texts of their kinds. -/
theorem lexed_of_tokenize {source : String} {tokens : List Token}
    (made : tokenize source = .ok tokens) : Lexed (closed tokens) := by
  have lexes := lexes_tokenize source
  obtain ⟨front, last, rfl, _, ended⟩ := lexes.exists_ended made
  rw [closed_of_ended ended]
  intro token member proper
  rcases lexes.lexeme_or_end made token member with lexeme | ⟨there, rfl⟩
  · exact lexeme
  · cases proper

/-- What is parsed from tokens with texts of their kinds is regular. -/
theorem Program.regular_of_lexed {tokens : List Token} {program : Program}
    (lexed : Lexed (closed tokens)) (parsed : parse tokens = .ok program) : program.Regular := by
  obtain ⟨misses, found, taken, run⟩ := ParseSession.exists_run tokens
  obtain ⟨_, rfl⟩ := ParseSession.run_ended_of_parse parsed run
  have row := run.meets Peg.definition_settles rfl
  exact Peg.InRow.forall_lexed row lexed fun _ _ _ part => part.2

/-- The program of a text is made of its tokens. -/
theorem exists_tokens_of_parseText {source : String} {program : Program}
    (parsed : parseText source = .ok program) :
    ∃ tokens, tokenize source = .ok tokens ∧ parse tokens = .ok program := by
  rcases made : tokenize source with _ | tokens
  · rw [parseText, made] at parsed
    cases parsed
  · rw [parseText, made] at parsed
    exact ⟨tokens, rfl, parsed⟩

/-- The program of a text is regular, at every depth. -/
theorem parseText_regular {source : String} {program : Program}
    (parsed : parseText source = .ok program) : program.Regular := by
  obtain ⟨tokens, made, parsed⟩ := exists_tokens_of_parseText parsed
  exact Program.regular_of_lexed (lexed_of_tokenize made) parsed

/-- A call of `return` with two arguments is an expression, and its program is regular. -/
theorem parseText_regular_of_call :
    let name := fun (column : Nat) (text : String) =>
      Expression.single ⟨1, column⟩ (.identifier ⟨1, column⟩ text)
    let call := Expression.single ⟨1, 7⟩ (.call ⟨1, 7⟩ "return" [name 14 "a", name 17 "b"])
    let program : Program :=
      ⟨[.function ⟨⟨1, 1⟩, [], "f", [], none, [.simple ⟨⟨1, 7⟩, .expression call⟩]⟩]⟩
    parseText "f() \x7b return(a, b); \x7d" = .ok program ∧ program.Regular := by
  intro name call program
  have made : tokenize "f() \x7b return(a, b); \x7d" =
      .ok [⟨.identifier, "f", ⟨1, 1⟩⟩, ⟨.symbol, "(", ⟨1, 2⟩⟩, ⟨.symbol, ")", ⟨1, 3⟩⟩,
        ⟨.symbol, "\x7b", ⟨1, 5⟩⟩, ⟨.identifier, "return", ⟨1, 7⟩⟩, ⟨.symbol, "(", ⟨1, 13⟩⟩,
        ⟨.identifier, "a", ⟨1, 14⟩⟩, ⟨.symbol, ",", ⟨1, 15⟩⟩, ⟨.identifier, "b", ⟨1, 17⟩⟩,
        ⟨.symbol, ")", ⟨1, 18⟩⟩, ⟨.symbol, ";", ⟨1, 19⟩⟩, ⟨.symbol, "\x7d", ⟨1, 21⟩⟩,
        Token.endAt ⟨1, 22⟩] := by
    decide +kernel
  have parsed : parseText "f() \x7b return(a, b); \x7d" = .ok program := by
    rw [parseText, made]
    rfl
  exact ⟨parsed, parseText_regular parsed⟩

end CollectionSchema
