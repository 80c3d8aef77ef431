import CollectionSchema.Grammar.Session
import CollectionSchema.Proofs.Peg.Completion

/-!
# Offering a token

A run that ends at a place, with nothing noted behind it or taken from there on, is
offered another token for that place.  Either the token is taken, and then it begins
a completion of the phrase; or it is ignored, and then the phrase turns out as before
and nothing that was wanted at the place admits the token (`Run.takes_or_ignores`).

Which part of the phrase takes the token does not matter.  It may be an alternative
that was given up, or a mark that no note asked for: an optional one, or one that
makes a longer operator of what stands in front of it.  Each of them can be completed
as it stands, and so can everything around it.
-/

set_option autoImplicit false

namespace CollectionSchema

/-- Whether a token is what was wanted.  A declaration is wanted of a token that begins one. -/
def Expectation.Admits : Expectation → Token → Prop
  | .mark character, token => token.isSymbol character = true
  | .word spelling, token => token.isWord spelling = true
  | .identifier, token => token.kind = .identifier
  | .string, token => token.kind = .string
  | .number, token | .integer, token =>
      token.kind = .number ∧ (Text.integer64? token.lexeme.toList).isSome = true
  | .operator, token =>
      token.kind = .symbol ∧ (Operator.ofSpelling? token.lexeme).isSome = true
  | .decoratorName, token =>
      token.kind = .identifier ∧ (DecoratorName.ofWord? token.lexeme).isSome = true
  | .sortOrder, token =>
      token.kind = .identifier ∧ (SortOrder.ofWord? token.lexeme).isSome = true
  | .basicType, token =>
      token.kind = .identifier ∧ (BasicType.ofWord? token.lexeme).isSome = true
  | .declaration, token =>
      ∃ rest program, parse (token :: rest) = .ok program ∧ program.declarations ≠ []

/-- There is something to want for every expectation. -/
theorem Expectation.exists_admitted : ∀ expected : Expectation, ∃ token, expected.Admits token
  | .mark character =>
      ⟨⟨.symbol, String.singleton character, Position.start⟩, by simp [Admits, Token.isSymbol]⟩
  | .word spelling =>
      ⟨⟨.identifier, spelling, Position.start⟩, by simp [Admits, Token.isWord]⟩
  | .identifier => ⟨⟨.identifier, "x", Position.start⟩, rfl⟩
  | .string => ⟨⟨.string, "''", Position.start⟩, rfl⟩
  | .number | .integer => ⟨⟨.number, "0", Position.start⟩, rfl, by decide⟩
  | .operator => ⟨⟨.symbol, "+", Position.start⟩, rfl, by decide⟩
  | .decoratorName => ⟨⟨.identifier, "public", Position.start⟩, rfl, by decide⟩
  | .sortOrder => ⟨⟨.identifier, "asc", Position.start⟩, rfl, by decide⟩
  | .basicType => ⟨⟨.identifier, "string", Position.start⟩, rfl, by decide⟩
  | .declaration =>
      ⟨⟨.identifier, "collection", Position.start⟩,
        [⟨.identifier, "x", Position.start⟩, ⟨.symbol, "\x7b", Position.start⟩,
          ⟨.symbol, "\x7d", Position.start⟩],
        ⟨[.collection ⟨Position.start, [], "x", []⟩]⟩, by rfl, by simp⟩

namespace Peg

variable {α β : Type}

theorem Terminal.read_of_admits {name : RuleName} {terminal : Terminal α} {next : Option Token}
    {token : Token} {miss : Miss} (noted : miss ∈ terminal.misses name next)
    (admits : miss.expected.Admits token) : ∃ value, terminal.read token = some value := by
  rw [← Option.isSome_iff_exists]
  have numbers : ∀ miss ∈ Terminal.number.misses name next, miss.expected.Admits token →
      (Terminal.number.read token).isSome = true := by
    rcases next with _ | next
    · simp +contextual [misses, Expectation.Admits, Terminal.read]
    · simp only [misses]
      split <;> simp +contextual [Expectation.Admits, Terminal.read]
  cases terminal with
  | number => exact numbers miss noted admits
  | either first second =>
      simp only [misses, List.mem_cons, List.not_mem_nil, or_false] at noted
      rcases noted with rfl | rfl <;> simp_all [Expectation.Admits, Terminal.read]
      split <;> rfl
  | _ =>
      simp only [misses, List.mem_singleton] at noted
      subst noted
      simp_all [Expectation.Admits, Terminal.read]


/-! ## Phrases that stay -/

namespace Stays

variable {name : RuleName} {tokens words : List Token} {place taken : Nat}
  {found : Option (α × Nat)} {first second body : Phrase α}

/-- What a single token in front of the place is stays. -/
theorem token {terminal : Terminal α} {value : α} {head : Token} {rest : List Token}
    (read : terminal.read head = some value) (positive : 0 < place) :
    Stays name (.token terminal) (head :: rest) place words (some (value, 1)) := by
  intro others
  rw [redirect_cons head rest _ positive]
  exact ⟨_, .token read⟩

theorem tokenMissed {terminal : Terminal α}
    (unread : tokens.head?.bind terminal.read = none) (passes : Passes tokens place)
    (positive : 0 < place) : Stays name (.token terminal) tokens place words none := by
  intro rest
  exact ⟨_, .tokenMissed (by rwa [head_redirect passes positive])⟩

theorem reference {symbol : Nonterminal α}
    (inner : Stays symbol.name (definition symbol) tokens place words found) :
    Stays name (.reference symbol) tokens place words found := by
  intro rest
  obtain ⟨_, run⟩ := inner rest
  exact ⟨_, .reference run⟩

theorem sequenceMissed {second : Phrase β} (left : Stays name first tokens place words none) :
    Stays name (.sequence first second) tokens place words none := by
  intro rest
  obtain ⟨_, run⟩ := left rest
  exact ⟨_, .sequenceMissed run⟩

theorem sequence {second : Phrase β} {value : α} {result : Option (β × Nat)}
    (left : Stays name first tokens place words (some (value, taken))) (le : taken ≤ place)
    (passes : Passes tokens place)
    (right : Stays name second (tokens.drop taken) (place - taken) words result) :
    Stays name (.sequence first second) tokens place words
      (further (fun result => (value, result)) taken result) := by
  intro rest
  obtain ⟨_, front⟩ := left rest
  obtain ⟨_, again⟩ := right rest
  rw [← drop_redirect passes le] at again
  exact ⟨_, .sequence front again⟩

theorem choiceFirst {result : α × Nat} (left : Stays name first tokens place words (some result)) :
    Stays name (.choice first second) tokens place words (some result) := by
  intro rest
  obtain ⟨_, run⟩ := left rest
  exact ⟨_, .choiceFirst run⟩

theorem choiceSecond (left : Stays name first tokens place words none)
    (right : Stays name second tokens place words found) :
    Stays name (.choice first second) tokens place words found := by
  intro rest
  obtain ⟨_, front⟩ := left rest
  obtain ⟨_, run⟩ := right rest
  exact ⟨_, .choiceSecond front run⟩

theorem optional {value : α} (inner : Stays name body tokens place words (some (value, taken))) :
    Stays name (.optional body) tokens place words (some (some value, taken)) := by
  intro rest
  obtain ⟨_, run⟩ := inner rest
  exact ⟨_, .optional run⟩

theorem optionalMissed (inner : Stays name body tokens place words none) :
    Stays name (.optional body) tokens place words (some (none, 0)) := by
  intro rest
  obtain ⟨_, run⟩ := inner rest
  exact ⟨_, .optionalMissed run⟩

theorem manyEnd (inner : Stays name body tokens place words none) :
    Stays name (.many body) tokens place words (some ([], 0)) := by
  intro rest
  obtain ⟨_, run⟩ := inner rest
  exact ⟨_, .manyEnd run⟩

theorem many {item : α} {items : List α} {more : Nat} (consumes : body.consumes = true)
    (inner : Stays name body tokens place words (some (item, taken))) (le : taken ≤ place)
    (passes : Passes tokens place)
    (others : Stays name (.many body) (tokens.drop taken) (place - taken) words
      (some (items, more))) :
    Stays name (.many body) tokens place words (some (item :: items, taken + more)) := by
  intro rest
  obtain ⟨_, front⟩ := inner rest
  obtain ⟨_, again⟩ := others rest
  rw [← drop_redirect passes le] at again
  exact ⟨_, .many consumes front again⟩

theorem flagged {character : Char} {head : Token} {rest : List Token}
    (set : head.isSymbol character = true) (positive : 0 < place)
    (inner : Stays name body rest (place - 1) words found) :
    Stays name (.flagged character body) (head :: rest) place words
      (further (fun value => (true, value)) 1 found) := by
  intro others
  obtain ⟨_, again⟩ := inner others
  rw [redirect_cons head rest _ positive]
  exact ⟨_, .flagged set again⟩

theorem flaggedUnset {character : Char} (consumes : body.consumes = true)
    (unset : ∀ others, ∀ head ∈ (redirect tokens place (words ++ others)).head?,
      head.isSymbol character = false)
    (inner : Stays name body tokens place words found) :
    Stays name (.flagged character body) tokens place words
      (further (fun value => (false, value)) 0 found) := by
  intro others
  obtain ⟨_, again⟩ := inner others
  exact ⟨_, .flaggedUnset consumes (unset others) again⟩

theorem operation {operator : Operator} (consumes : body.consumes = true)
    (read : ∀ others, Recognizer.operator.look (redirect tokens place (words ++ others)) =
      some (operator, taken)) (le : taken ≤ place) (passes : Passes tokens place)
    (inner : Stays name body (tokens.drop taken) (place - taken) words found) :
    Stays name (.operation body) tokens place words
      (further (fun value => (operator, value)) taken found) := by
  intro others
  obtain ⟨_, again⟩ := inner others
  rw [← drop_redirect passes le] at again
  exact ⟨_, .operation consumes (read others) again⟩

theorem map {build : α → β} (inner : Stays name body tokens place words found) :
    Stays name (.map build body) tokens place words (further build 0 found) := by
  intro rest
  obtain ⟨_, run⟩ := inner rest
  exact ⟨_, .map run⟩

/-- The place of a match stays, since a match that stays takes the first token. -/
theorem located {build : Position → α → β} (consumes : body.consumes = true)
    (passes : Passes tokens place)
    (counted : ∀ value count, found = some (value, count) → count ≤ place)
    (inner : Stays name body tokens place words found) :
    Stays name (.located build body) tokens place words
      (further (build ((tokens.head?.map Token.position).getD Position.start)) 0 found) := by
  intro rest
  obtain ⟨_, run⟩ := inner rest
  rcases found with _ | ⟨value, count⟩
  · exact ⟨_, .located consumes run⟩
  · have positive := Nat.lt_of_lt_of_le (run.progress consumes rfl) (counted _ _ rfl)
    rw [← head_redirect passes positive]
    exact ⟨_, .located consumes run⟩

end Stays

/-! ## Tokens that are taken and tokens that are ignored -/

/-- With a token at a place, a phrase can be completed to a match. -/
def Takes (name : RuleName) (phrase : Phrase α) (tokens : List Token) (place : Nat)
    (token : Token) : Prop :=
  ∃ words, Completes name phrase tokens place (token :: words)

/-- Nothing that some notes say was wanted at a place admits a token. -/
def Unwanted (place : Nat) (token : Token) (misses : List Miss) : Prop :=
  ∀ miss ∈ misses, miss.position = place → ¬ miss.expected.Admits token

/-- With a token at a place, a phrase turns out as before, and the token was not wanted there. -/
structure Ignores (name : RuleName) (phrase : Phrase α) (tokens : List Token) (place : Nat)
    (token : Token) (misses : List Miss) (found : Option (α × Nat)) : Prop where
  stays : Stays name phrase tokens place [token] found
  unwanted : Unwanted place token misses

namespace Unwanted

variable {place taken : Nat} {token : Token} {misses later : List Miss}

theorem nil : Unwanted place token [] := List.forall_mem_nil _

theorem append (first : Unwanted place token misses) (second : Unwanted place token later) :
    Unwanted place token (misses ++ later) :=
  List.forall_mem_append.mpr ⟨first, second⟩

theorem shift (unwanted : Unwanted (place - taken) token misses) :
    Unwanted place token (misses.map (Miss.shift taken)) := by
  intro miss member here
  obtain ⟨inner, noted, rfl⟩ := List.mem_map.mp member
  rw [Miss.shift_position] at here
  exact unwanted inner noted (by omega)

theorem of_pos (first : ∀ miss ∈ misses, miss.position = 0) (positive : 0 < place) :
    Unwanted place token misses :=
  fun miss member here => absurd (first miss member) (by omega)

end Unwanted

/-- A single token is taken if it can be read, and ignored otherwise. -/
theorem Terminal.takes_or_ignores {terminal : Terminal α} {tokens : List Token} (name : RuleName)
    (token : Token) :
    Takes name (.token terminal) tokens 0 token ∨
      Ignores name (.token terminal) tokens 0 token (terminal.misses name tokens.head?) none := by
  rcases read : terminal.read token with _ | value
  · refine .inr ⟨fun rest => ⟨_, .tokenMissed (by simpa [redirect_zero] using read)⟩, ?_⟩
    intro miss member _ admits
    obtain ⟨value, reads⟩ := Terminal.read_of_admits member admits
    rw [read] at reads
    cases reads
  · exact .inl ⟨[], fun rest _ => ⟨_, value, .token read⟩⟩

/-- Where an operator is missed, a token is taken if it is one. -/
theorem operation_takes_or_ignores {operand : Phrase α} {tokens : List Token} (name : RuleName)
    (wellFormed : (Phrase.operation operand).wellFormed = true)
    (distinct : (Phrase.operation operand).Distinct) (token : Token) :
    Takes name (.operation operand) tokens 0 token ∨
      Ignores name (.operation operand) tokens 0 token [⟨0, false, name, .operator⟩] none := by
  simp only [Phrase.wellFormed, Bool.and_eq_true] at wellFormed
  by_cases marks : token.kind = .symbol ∧ (Operator.ofSpelling? token.lexeme).isSome = true
  · obtain ⟨symbol, single⟩ := marks
    obtain ⟨operator, single⟩ := Option.isSome_iff_exists.mp single
    obtain ⟨words, writes⟩ := Phrase.writes name wellFormed.2 distinct.1
    refine .inl ⟨words, fun rest last => ?_⟩
    obtain ⟨misses, value, inner⟩ := writes.run rest last
    have alone : ∀ next ∈ (words ++ rest).head?, ¬ Continues next := fun next member continues =>
      inner.forecast.not_missed (by rw [Option.mem_def.mp member]; exact distinct.2 next continues)
    have look : Recognizer.operator.look [token] = some (operator, 1) := by
      simp [Recognizer.operator, symbol, single]
    have again : Recognizer.operator.look (token :: (words ++ rest)) = some (operator, 1) :=
      look_operator_again look (by simp) (by simpa using alone)
    rw [redirect_zero, List.length_cons, show 0 + (words.length + 1) = 1 + words.length by omega]
    exact ⟨_, (operator, value), .operation wellFormed.1 again inner⟩
  · refine .inr ⟨fun rest => ⟨_, .operationMissed (look_operator_eq_none_iff.mpr ?_)⟩, ?_⟩
    · rintro _ ⟨⟩ symbol
      exact Option.not_isSome_iff_eq_none.mp fun single => marks ⟨symbol, single⟩
    · intro miss member _ admits
      rw [List.mem_singleton.mp member] at admits
      exact marks admits

/-- An operator in front of the place stays, unless the token makes a longer one of it and is taken
for that. -/
theorem look_operator_or_takes {operand : Phrase α} {tokens : List Token} {operator : Operator}
    {place taken : Nat} (name : RuleName)
    (wellFormed : (Phrase.operation operand).wellFormed = true)
    (distinct : (Phrase.operation operand).Distinct)
    (read : Recognizer.operator.look tokens = some (operator, taken)) (le : taken ≤ place)
    (passes : Passes tokens place) (token : Token) :
    (∀ others, Recognizer.operator.look (redirect tokens place ([token] ++ others)) =
      some (operator, taken)) ∨ Takes name (.operation operand) tokens place token := by
  rcases Nat.lt_or_eq_of_le le with less | rfl
  · exact .inl fun others =>
      look_operator_congr read (take_of_take less (take_redirect _ passes))
  rcases look_operator_cases read with
    ⟨first, rest, rfl, rfl, symbol, single, _⟩ |
    ⟨first, second, rest, rfl, rfl, symbol, also, single, double⟩
  · rcases pair : Recognizer.pair? first token with _ | double
    · exact .inl fun others => by simp [redirect, Recognizer.operator, symbol, single, pair]
    · simp only [Phrase.wellFormed, Bool.and_eq_true] at wellFormed
      obtain ⟨words, writes⟩ := Phrase.writes name wellFormed.2 distinct.1
      refine .inr ⟨words, fun others last => ?_⟩
      obtain ⟨misses, value, inner⟩ := writes.run others last
      have longer : Recognizer.operator.look (first :: token :: (words ++ others)) =
          some (double, 2) := by simp [Recognizer.operator, symbol, single, pair]
      rw [List.length_cons, show 1 + (words.length + 1) = 2 + words.length by omega]
      exact ⟨_, (double, value), .operation wellFormed.1 longer inner⟩
  · obtain ⟨alone, single⟩ := Option.isSome_iff_exists.mp single
    exact .inl fun others => by
      simp [redirect, Recognizer.operator, Recognizer.pair?, symbol, also, single, double]

/-- A mark that is missing in front of a phrase stays missing, unless the token is this mark and is
taken for it. -/
theorem unset_or_takes {body : Phrase α} {character : Char} {tokens : List Token} {place : Nat}
    (name : RuleName) (wellFormed : (Phrase.flagged character body).wellFormed = true)
    (distinct : (Phrase.flagged character body).Distinct)
    (unset : ∀ head ∈ tokens.head?, head.isSymbol character = false)
    (passes : Passes tokens place) (token : Token) :
    (∀ others, ∀ head ∈ (redirect tokens place ([token] ++ others)).head?,
      head.isSymbol character = false) ∨
      Takes name (.flagged character body) tokens place token := by
  rcases Nat.eq_zero_or_pos place with rfl | positive
  · rcases set : token.isSymbol character with _ | _
    · refine .inl fun others head member => ?_
      obtain rfl : token = head := Option.some.inj member
      exact set
    · simp only [Phrase.wellFormed, Bool.and_eq_true] at wellFormed
      obtain ⟨words, writes⟩ := Phrase.writes name wellFormed.2 distinct.1
      refine .inr ⟨words, fun others last => ?_⟩
      obtain ⟨misses, value, inner⟩ := writes.run others last
      rw [redirect_zero, List.length_cons, show 0 + (words.length + 1) = 1 + words.length by omega]
      exact ⟨_, (true, value), .flagged set inner⟩
  · refine .inl fun others head member => unset head ?_
    rwa [head_redirect passes positive] at member

/-- A token that is offered for the place where a run ends is taken, or it is ignored. -/
theorem Run.takes_or_ignores {name : RuleName} {phrase : Phrase α} {tokens : List Token}
    {misses : List Miss} {found : Option (α × Nat)} (run : Run name phrase tokens misses found)
    (token : Token) : ∀ {place : Nat}, phrase.wellFormed = true → phrase.Distinct →
      UpTo place misses found → Passes tokens place →
        Takes name phrase tokens place token ∨
          Ignores name phrase tokens place token misses found := by
  induction run with
  | token read =>
      intro place _ _ upTo _
      exact .inr ⟨.token read (upTo.taken _ _ rfl), .nil⟩
  | tokenMissed unread =>
      intro place _ _ _ passes
      rcases Nat.eq_zero_or_pos place with rfl | positive
      · exact Terminal.takes_or_ignores _ token
      · exact .inr ⟨.tokenMissed unread passes positive,
          .of_pos (Terminal.misses_position _ _ _) positive⟩
  | @reference _ _ symbol _ _ _ _ ih =>
      intro place _ _ upTo passes
      refine (ih (definition_wellFormed symbol) (definition_distinct symbol) upTo passes).imp ?_ ?_
      · exact Exists.imp fun _ inner => inner.reference
      · exact fun inner => ⟨inner.stays.reference, inner.unwanted⟩
  | @sequenceMissed _ _ name _ second _ _ _ ih =>
      intro place wellFormed distinct upTo passes
      simp only [Phrase.wellFormed, Bool.and_eq_true] at wellFormed
      rcases ih wellFormed.1 distinct.1 upTo.missed passes with ⟨words, front⟩ | front
      · obtain ⟨more, behind⟩ := Phrase.writes name wellFormed.2 distinct.2
        exact .inl ⟨words ++ more, front.sequence passes behind⟩
      · exact .inr ⟨front.stays.sequenceMissed, front.unwanted⟩
  | @sequence _ _ name _ _ _ _ _ _ _ _ _ right ihLeft ihRight =>
      intro place wellFormed distinct upTo passes
      simp only [Phrase.wellFormed, Bool.and_eq_true] at wellFormed
      obtain ⟨le, behind⟩ := upTo.second.behind right
      rcases ihLeft wellFormed.1 distinct.1 (upTo.first (by rintro _ _ ⟨⟩; exact le)) passes with
        ⟨words, front⟩ | front
      · obtain ⟨more, shortest⟩ := Phrase.writes name wellFormed.2 distinct.2
        exact .inl ⟨words ++ more, front.sequence passes shortest⟩
      · rcases ihRight wellFormed.2 distinct.2 behind (passes.drop le) with ⟨words, inner⟩ | inner
        · exact .inl ⟨words, .behind (front.stays.append words) le passes inner⟩
        · exact .inr ⟨front.stays.sequence le passes inner.stays,
            front.unwanted.append inner.unwanted.shift⟩
  | choiceFirst _ ih =>
      intro place wellFormed distinct upTo passes
      simp only [Phrase.wellFormed, Bool.and_eq_true] at wellFormed
      refine (ih wellFormed.1 distinct.1 upTo passes).imp ?_ ?_
      · exact Exists.imp fun _ inner => inner.choiceFirst
      · exact fun inner => ⟨inner.stays.choiceFirst, inner.unwanted⟩
  | choiceSecond _ _ ihLeft ihRight =>
      intro place wellFormed distinct upTo passes
      simp only [Phrase.wellFormed, Bool.and_eq_true] at wellFormed
      rcases ihLeft wellFormed.1 distinct.1 (upTo.first (by rintro _ _ ⟨⟩)) passes with
        ⟨words, front⟩ | front
      · exact .inl ⟨words, front.choiceFirst⟩
      · rcases ihRight wellFormed.2 distinct.2 upTo.second passes with ⟨words, inner⟩ | inner
        · exact .inl ⟨words, .choiceSecond (front.stays.append words) inner⟩
        · exact .inr ⟨front.stays.choiceSecond inner.stays, front.unwanted.append inner.unwanted⟩
  | optional _ ih =>
      intro place wellFormed distinct upTo passes
      refine (ih wellFormed distinct (upTo.of_found (by rintro _ _ ⟨⟩; exact ⟨_, rfl⟩))
        passes).imp ?_ ?_
      · exact Exists.imp fun _ inner => inner.optional
      · exact fun inner => ⟨inner.stays.optional, inner.unwanted⟩
  | optionalMissed _ ih =>
      intro place wellFormed distinct upTo passes
      refine (ih wellFormed distinct upTo.missed passes).imp ?_ ?_
      · exact Exists.imp fun _ inner => inner.optional
      · exact fun inner => ⟨inner.stays.optionalMissed, inner.unwanted⟩
  | manyEnd _ ih =>
      intro place wellFormed distinct upTo passes
      have valid := wellFormed
      simp only [Phrase.wellFormed, Bool.and_eq_true] at wellFormed
      refine (ih wellFormed.2 distinct upTo.missed passes).imp ?_ ?_
      · exact Exists.imp fun _ inner => inner.many valid passes
      · exact fun inner => ⟨inner.stays.manyEnd, inner.unwanted⟩
  | many consumes _ others ihInner ihOthers =>
      intro place wellFormed distinct upTo passes
      have valid := wellFormed
      simp only [Phrase.wellFormed, Bool.and_eq_true] at wellFormed
      obtain ⟨le, behind⟩ := upTo.second.behind others (fun items => _ :: items)
      rcases ihInner wellFormed.2 distinct (upTo.first (by rintro _ _ ⟨⟩; exact le)) passes with
        ⟨words, front⟩ | front
      · exact .inl ⟨words, front.many valid passes⟩
      · rcases ihOthers valid distinct behind (passes.drop le) with ⟨words, more⟩ | more
        · exact .inl ⟨words, more.manyBehind consumes (front.stays.append words) le passes⟩
        · exact .inr ⟨front.stays.many consumes le passes more.stays,
            front.unwanted.append more.unwanted.shift⟩
  | flagged set inner ih =>
      intro place wellFormed distinct upTo passes
      simp only [Phrase.wellFormed, Bool.and_eq_true] at wellFormed
      obtain ⟨positive, behind⟩ := upTo.behind inner
      refine (ih wellFormed.2 distinct.1 behind (passes.drop positive)).imp ?_ ?_
      · exact Exists.imp fun _ more => more.flagged set positive
      · exact fun more => ⟨more.stays.flagged set positive, more.unwanted.shift⟩
  | flaggedUnset consumes unset _ ih =>
      intro place wellFormed distinct upTo passes
      rcases unset_or_takes _ wellFormed distinct unset passes token with still | takes
      · simp only [Phrase.wellFormed, Bool.and_eq_true] at wellFormed
        refine (ih wellFormed.2 distinct.1 upTo.unshift passes).imp ?_ ?_
        · exact Exists.imp fun _ inner => inner.flaggedUnset consumes distinct
        · exact fun inner => ⟨inner.stays.flaggedUnset consumes still, inner.unwanted⟩
      · exact .inl takes
  | operationMissed unread =>
      intro place wellFormed distinct _ passes
      rcases Nat.eq_zero_or_pos place with rfl | positive
      · exact operation_takes_or_ignores _ wellFormed distinct token
      · refine .inr ⟨fun rest => ⟨_, .operationMissed (look_operator_eq_none_iff.mpr ?_)⟩,
          .of_pos (by simp) positive⟩
        rw [head_redirect passes positive]
        exact look_operator_eq_none_iff.mp unread
  | operation consumes read inner ih =>
      intro place wellFormed distinct upTo passes
      obtain ⟨le, behind⟩ := upTo.behind inner
      rcases look_operator_or_takes _ wellFormed distinct read le passes token with again | takes
      · simp only [Phrase.wellFormed, Bool.and_eq_true] at wellFormed
        refine (ih wellFormed.2 distinct.1 behind (passes.drop le)).imp ?_ ?_
        · exact Exists.imp fun _ more => more.operation consumes distinct read le passes
        · exact fun more => ⟨more.stays.operation consumes again le passes, more.unwanted.shift⟩
      · exact .inl takes
  | map _ ih =>
      intro place wellFormed distinct upTo passes
      refine (ih wellFormed distinct upTo.unshift passes).imp ?_ ?_
      · exact Exists.imp fun _ inner => inner.map
      · exact fun inner => ⟨inner.stays.map, inner.unwanted⟩
  | located consumes _ ih =>
      intro place wellFormed distinct upTo passes
      simp only [Phrase.wellFormed, Bool.and_eq_true] at wellFormed
      refine (ih wellFormed.2 distinct upTo.unshift passes).imp ?_ ?_
      · exact Exists.imp fun _ inner => inner.located consumes
      · exact fun inner =>
          ⟨inner.stays.located consumes passes upTo.unshift.taken, inner.unwanted⟩

/-! ## Tokens that were wanted -/

section Wanted

variable {name : RuleName} {phrase : Phrase α} {tokens : List Token} {misses : List Miss}
  {found : Option (α × Nat)} {place : Nat}

/-- A token that was wanted at the place where a run ends is taken there. -/
theorem Run.takes_of_admits (run : Run name phrase tokens misses found)
    (wellFormed : phrase.wellFormed = true) (distinct : phrase.Distinct)
    (upTo : UpTo place misses found) {miss : Miss} (noted : miss ∈ misses)
    (here : miss.position = place) {token : Token} (admits : miss.expected.Admits token) :
    Takes name phrase tokens place token := by
  have passes : Passes tokens place := here ▸ run.passes_misses miss noted
  rcases run.takes_or_ignores token wellFormed distinct upTo passes with takes | ignores
  · exact takes
  · exact absurd admits (ignores.unwanted miss noted here)

/-- The tokens in front of the place where a run is stuck can be completed to a match. -/
theorem Run.complete (run : Run name phrase tokens misses found)
    (wellFormed : phrase.wellFormed = true) (distinct : phrase.Distinct)
    (stuck : Stuck place misses found) : ∃ words, Completes name phrase tokens place words := by
  obtain ⟨miss, noted, here⟩ := stuck.there
  obtain ⟨token, admits⟩ := miss.expected.exists_admitted
  obtain ⟨words, completes⟩ :=
    run.takes_of_admits wellFormed distinct stuck.upTo noted here admits
  exact ⟨token :: words, completes⟩

end Wanted

end Peg

end CollectionSchema
