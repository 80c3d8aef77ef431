import CollectionSchema.Proofs.Peg.Completion
import CollectionSchema.Proofs.Peg.Echo

/-!
# The name behind the word `let`

In the body of a function, statements can be looked into beyond their ends: a condition
without an arm has tried what follows as an arm, and a statement that begins like a
compound one has been tried as such.  So what is read of the body when one name in it is
another cannot be told from single parts.  Behind the word `let`, however, nothing but a
binding asks for a word: there the word `let` ends a value or begins the binding, and
behind a value only marks are asked for.

Therefore every run of a part of a body, whether it matches or not, turns out the same
when the name behind a word `let` is another (`Run.renamed`); only the value is another
one if the name is part of the match.
-/

set_option autoImplicit false

namespace CollectionSchema.Peg

variable {α β : Type}

/-! ## Phrases behind the word -/

/-- Whether a terminal does not ask for the text of an identifier. -/
def Terminal.passesName : Terminal α → Bool
  | .mark _ | .identifier | .string | .number => true
  | _ => false

/-- Whether the last token of a match of a terminal in a body can be the word `let`. -/
def Terminal.takesLet : Terminal α → Bool
  | .identifier => true
  | .word spelling => spelling == "let"
  | .either first second => first == "let" || second == "let"
  | _ => false

namespace Phrase

/-- Whether how a phrase turns out does not depend on the text of an identifier that stands
first. -/
def passesName : {α : Type} → Phrase α → Bool
  | _, .token terminal => terminal.passesName
  | _, .reference _ => false
  | _, .sequence first second => first.passesName && (first.consumes || second.passesName)
  | _, .choice first second => first.passesName && second.passesName
  | _, .operation _ => true
  | _, .optional body | _, .many body | _, .flagged _ body | _, .map _ body | _, .located _ body =>
      body.passesName

/-- Whether a match of a phrase in a body can end in the word `let`. -/
def endsInLet : {α : Type} → Phrase α → Bool
  | _, .token terminal => terminal.takesLet
  | _, .reference symbol => symbol.endsInName
  | _, .sequence first second => second.endsInLet || !second.consumes && first.endsInLet
  | _, .choice first second => first.endsInLet || second.endsInLet
  | _, .optional body | _, .many body | _, .flagged _ body | _, .operation body | _, .map _ body
  | _, .located _ body => body.endsInLet

/-- No part of a phrase asks for the text of an identifier behind a part that can end in the word
`let`. -/
def Tranquil : {α : Type} → Phrase α → Bool
  | _, .token _ | _, .reference _ => true
  | _, .sequence first second =>
      first.Tranquil && (second.Tranquil && (!first.endsInLet || second.passesName))
  | _, .choice first second => first.Tranquil && second.Tranquil
  | _, .many body => body.Tranquil && (!body.endsInLet || body.passesName)
  | _, .optional body | _, .flagged _ body | _, .operation body | _, .map _ body
  | _, .located _ body => body.Tranquil

theorem tranquil_sequence_iff {first : Phrase α} {second : Phrase β} :
    (sequence first second).Tranquil = true ↔
      first.Tranquil = true ∧ second.Tranquil = true ∧
        (first.endsInLet = false ∨ second.passesName = true) := by
  change (_ && (_ && (!_ || _))) = true ↔ _
  simp only [Bool.and_eq_true, Bool.or_eq_true, Bool.not_eq_true']

theorem tranquil_choice_iff {first second : Phrase α} :
    (choice first second).Tranquil = true ↔ first.Tranquil = true ∧ second.Tranquil = true :=
  Bool.and_eq_true_iff

theorem tranquil_many_iff {body : Phrase α} :
    (many body).Tranquil = true ↔
      body.Tranquil = true ∧ (body.endsInLet = false ∨ body.passesName = true) := by
  change (_ && (!_ || _)) = true ↔ _
  simp only [Bool.and_eq_true, Bool.or_eq_true, Bool.not_eq_true']

end Phrase

theorem definition_endsInLet (symbol : Nonterminal α) (inside : symbol.inBody = true) :
    (definition symbol).endsInLet = symbol.endsInName := by
  cases symbol <;> first | exact absurd inside Bool.false_ne_true | rfl

theorem definition_tranquil (symbol : Nonterminal α) (inside : symbol.inBody = true) :
    (definition symbol).Tranquil = true := by
  cases symbol <;> first | exact absurd inside Bool.false_ne_true | rfl

/-! ## Matches that end in the word -/

theorem Terminal.takesLet_of_read {terminal : Terminal α} {token : Token} {value : α}
    (inside : terminal.inBody = true) (read : terminal.read token = some value)
    (word : token.isWord "let" = true) : terminal.takesLet = true := by
  obtain ⟨kind, lexeme⟩ := isWord_iff.mp word
  cases terminal <;> simp only [Terminal.read] at read
  case identifier => rfl
  case word =>
    simp only [Token.isWord, kind, lexeme, beq_self_eq_true, Bool.true_and] at read
    split at read
    case isTrue same => exact beq_iff_eq.mpr (eq_of_beq same).symm
    case isFalse => cases read
  case either first second =>
    simp only [Terminal.takesLet, Bool.or_eq_true, beq_iff_eq]
    by_cases isFirst : first = "let"
    · exact .inl isFirst
    · simp [Token.isWord, kind, lexeme, Ne.symm isFirst] at read
      exact .inr read.1.symm
  case mark => simp [Token.isSymbol, kind] at read
  case string | number => simp [kind] at read
  all_goals cases inside

/-- A match that ends in the word `let` is one of a phrase that can end in it. -/
theorem Run.endsInLet {name : RuleName} {phrase : Phrase α} {tokens : List Token}
    {misses : List Miss} {found : Option (α × Nat)} (run : Run name phrase tokens misses found) :
    phrase.inBody = true → ∀ {value : α} {taken : Nat}, found = some (value, taken) →
      ∀ last ∈ (tokens.take taken).getLast?, last.isWord "let" = true →
        phrase.endsInLet = true := by
  induction run with
  | token read =>
      rintro inside _ _ ⟨⟩ _ ⟨⟩ word
      exact Terminal.takesLet_of_read inside read word
  | @reference _ _ symbol _ _ _ _ ih =>
      intro inside _ _ matched last here word
      rw [Phrase.endsInLet, ← definition_endsInLet symbol inside]
      exact ih (definition_inBody symbol inside) matched last here word
  | @sequence _ _ _ first second tokens _ _ _ taken _ left right ihLeft ihRight =>
      intro inside _ _ matched last here word
      obtain ⟨insideFirst, insideSecond⟩ := Bool.and_eq_true _ _ |>.mp inside
      obtain ⟨_, count, rfl, _, rfl⟩ := further_eq_some_iff.mp matched
      rw [List.take_add, List.getLast?_append] at here
      rw [Phrase.endsInLet]
      rcases ends : ((tokens.drop taken).take count).getLast? with _ | other
      · rw [ends, Option.none_or] at here
        have none : second.consumes = false := Bool.eq_false_iff.mpr fun consumes => by
          have progress := right.progress consumes rfl
          have empty := List.getLast?_eq_none_iff.mp ends
          have length := List.length_take_of_le (right.passes rfl).1
          rw [empty, List.length_nil] at length
          omega
        rw [none, ihLeft insideFirst rfl last here word, Bool.not_false, Bool.and_self,
          Bool.or_true]
      · rw [ends, Option.some_or] at here
        cases here
        rw [ihRight insideSecond rfl _ ends word, Bool.true_or]
  | choiceFirst _ ih =>
      intro inside _ _ matched last here word
      have ends := ih (Bool.and_eq_true _ _ |>.mp inside).1 matched last here word
      rw [Phrase.endsInLet, ends, Bool.true_or]
  | choiceSecond _ _ _ ih =>
      intro inside _ _ matched last here word
      have ends := ih (Bool.and_eq_true _ _ |>.mp inside).2 matched last here word
      rw [Phrase.endsInLet, ends, Bool.or_true]
  | optional _ ih =>
      rintro inside _ _ ⟨⟩ last here word
      exact ih inside rfl last here word
  | @many _ _ body tokens _ _ _ _ taken more _ _ _ ihInner ihOthers =>
      rintro inside _ _ ⟨⟩ last here word
      rw [List.take_add, List.getLast?_append] at here
      rcases ends : ((tokens.drop taken).take more).getLast? with _ | other
      · rw [ends, Option.none_or] at here
        exact ihInner inside rfl last here word
      · rw [ends, Option.some_or] at here
        cases here
        exact ihOthers inside rfl _ ends word
  | @operation _ _ operand tokens _ taken _ _ consumes read inner ih =>
      intro inside _ _ matched last here word
      obtain ⟨_, count, rfl, _, rfl⟩ := further_eq_some_iff.mp matched
      have progress := inner.progress consumes rfl
      have length := List.length_take_of_le (inner.passes rfl).1
      rw [List.take_add, List.getLast?_append_of_ne_nil _ (by
        rw [← List.length_pos_iff, length]
        exact progress)] at here
      exact ih inside rfl last here word
  | map _ ih | located _ _ ih =>
      intro inside _ _ matched last here word
      obtain ⟨_, count, rfl, _, rfl⟩ := further_eq_some_iff.mp matched
      rw [Nat.zero_add] at here
      exact ih inside rfl last here word
  | flagged _ _ _ | flaggedUnset _ _ _ _ => exact nofun
  | _ =>
      intro _ _ _ matched last here
      cases matched <;> cases here

/-! ## Another name -/

/-- What two runs have found when the second has another name behind so many tokens: the same, or
values for the same tokens, with the name among them. -/
inductive SameBut (place : Nat) : Option (α × Nat) → Option (α × Nat) → Prop
  | same {found : Option (α × Nat)} : SameBut place found found
  | inside {value other : α} {taken : Nat} (lt : place < taken) :
      SameBut place (some (value, taken)) (some (other, taken))

namespace SameBut

variable {place : Nat} {found again : Option (α × Nat)}

theorem none (same : SameBut place none again) : again = none := by
  cases same
  rfl

theorem some {value : α} {taken : Nat} (same : SameBut place (some (value, taken)) again) :
    ∃ other, again = .some (other, taken) := by
  cases same with
  | same => exact ⟨_, rfl⟩
  | inside _ => exact ⟨_, rfl⟩

theorem further (same : SameBut place found again) (build : α → β) (taken : Nat) :
    SameBut (taken + place) (further build taken found) (further build taken again) := by
  cases same with
  | same => exact .same
  | inside lt => exact .inside (Nat.add_lt_add_left lt taken)

/-- What is found behind a match is put together with its value. -/
theorem behind {γ : Type} {value other : α} {taken : Nat} {result another : Option (β × Nat)}
    (build : α → β → γ)
    (first : SameBut place (Option.some (value, taken)) (Option.some (other, taken)))
    (near : taken ≤ place → SameBut (place - taken) result another)
    (far : place < taken → another = result) :
    SameBut place (Peg.further (build value) taken result)
      (Peg.further (build other) taken another) := by
  rcases Nat.lt_or_ge place taken with lt | le
  · obtain rfl := far lt
    cases first with
    | same => exact .same
    | inside _ =>
        rcases another with _ | ⟨_, count⟩
        · exact .same
        · exact .inside (Nat.lt_of_lt_of_le lt (Nat.le_add_right _ _))
  · have whole := (near le).further (build value) taken
    rw [Nat.add_sub_cancel' le] at whole
    cases first with
    | same => exact whole
    | inside lt => exact absurd lt (Nat.not_lt.mpr le)

end SameBut

/-- Another name in the place of one, at the same position in the text. -/
structure Renames (first other : Token) : Prop where
  kind : first.kind = .identifier
  again : other.kind = .identifier
  position : other.position = first.position

/-- The tokens in front of a name end in the word `let`, if there are any. -/
def EndsInLet (front : List Token) : Prop := ∀ last ∈ front.getLast?, last.isWord "let" = true

theorem EndsInLet.drop {front : List Token} (ends : EndsInLet front) (count : Nat) :
    EndsInLet (front.drop count) := by
  intro last here
  rw [List.getLast?_drop] at here
  split at here
  case isTrue => cases here
  case isFalse => exact ends last here

section Names

variable {first other : Token} {rest : List Token}

theorem Terminal.read_of_passesName {terminal : Terminal α} (renames : Renames first other)
    (passes : terminal.passesName = true) :
    (∃ value again, terminal.read first = some value ∧ terminal.read other = some again) ∨
      terminal.read first = none ∧ terminal.read other = none := by
  have firstMark : ∀ character, first.isSymbol character = false :=
    isSymbol_of_kind (by rw [renames.kind]; decide)
  have otherMark : ∀ character, other.isSymbol character = false :=
    isSymbol_of_kind (by rw [renames.again]; decide)
  cases terminal <;> simp only [Terminal.passesName] at passes <;>
    simp [Terminal.read, renames.kind, renames.again, firstMark, otherMark] <;> cases passes

/-- Behind the name, both lists are the same. -/
theorem drop_behind_name {front : List Token} {taken : Nat} (lt : front.length < taken) :
    (front ++ other :: rest).drop taken = (front ++ first :: rest).drop taken := by
  obtain ⟨more, rfl⟩ := Nat.exists_eq_add_of_lt lt
  rw [Nat.add_assoc, List.drop_length_add_append, List.drop_length_add_append,
    List.drop_succ_cons, List.drop_succ_cons]

/-- What is tried behind some tokens is tried again there, as far as it is in front of the name or
behind it. -/
theorem Run.exists_behind {name : RuleName} {phrase : Phrase α} {front : List Token} {taken : Nat}
    {misses : List Miss} {found : Option (α × Nat)}
    (run : Run name phrase ((front ++ first :: rest).drop taken) misses found)
    (near : taken ≤ front.length → ∃ notes again,
      Run name phrase (front.drop taken ++ other :: rest) notes again ∧
        SameBut (front.drop taken).length found again) :
    ∃ notes again, Run name phrase ((front ++ other :: rest).drop taken) notes again ∧
      (taken ≤ front.length → SameBut (front.length - taken) found again) ∧
      (front.length < taken → again = found) := by
  rcases Nat.lt_or_ge front.length taken with lt | le
  · have behind : (front ++ other :: rest).drop taken = (front ++ first :: rest).drop taken :=
      drop_behind_name lt
    rw [← behind] at run
    exact ⟨misses, found, run, fun le => absurd lt (Nat.not_lt.mpr le), fun _ => rfl⟩
  · obtain ⟨notes, again, run, alike⟩ := near le
    rw [List.length_drop] at alike
    exact ⟨notes, again, by rwa [List.drop_append_of_le_length le], fun _ => alike,
      fun lt => absurd lt (Nat.not_lt.mpr le)⟩

/-- A match that ends in front of the name ends in the word `let`. -/
theorem Run.endsInLet_of_drop {name : RuleName} {phrase : Phrase α} {front : List Token}
    {misses : List Miss} {value : α} {taken : Nat}
    (run : Run name phrase (front ++ first :: rest) misses (some (value, taken)))
    (inside : phrase.inBody = true) (ends : EndsInLet front) (le : taken ≤ front.length)
    (none : front.drop taken = []) : front = [] ∧ taken = 0 ∨ phrase.endsInLet = true := by
  have all : taken = front.length := Nat.le_antisymm le (List.drop_eq_nil_iff.mp none)
  rcases last : front.getLast? with _ | word
  · obtain rfl := List.getLast?_eq_none_iff.mp last
    exact .inl ⟨rfl, all⟩
  · refine .inr (run.endsInLet inside rfl word ?_ (ends word last))
    rw [all, List.take_left]
    exact last

theorem kind_last_operator {tokens : List Token} {operator : Operator} {taken : Nat}
    (read : Recognizer.operator.look tokens = some (operator, taken)) :
    ∀ last ∈ (tokens.take taken).getLast?, last.kind = .symbol := by
  rcases look_operator_cases read with
    ⟨_, _, rfl, rfl, symbol, _⟩ | ⟨_, _, _, rfl, rfl, _, symbol, _⟩ <;>
    (rintro _ ⟨⟩; exact symbol)

/-- What is found by a run of a part of a body, wherever the name behind a word `let` stands: with
another name in its place, a run of the same phrase turns out the same. -/
def TurnsOutAlike (first other : Token) (rest : List Token) (name : RuleName) (phrase : Phrase α)
    (tokens : List Token) (found : Option (α × Nat)) : Prop :=
  ∀ {front : List Token}, tokens = front ++ first :: rest → EndsInLet front →
    phrase.inBody = true → phrase.Tranquil = true → (front = [] → phrase.passesName = true) →
    ∃ notes again, Run name phrase (front ++ other :: rest) notes again ∧
      SameBut front.length found again

namespace TurnsOutAlike

variable {name : RuleName} {tokens : List Token} {misses : List Miss}

theorem token (renames : Renames first other) {terminal : Terminal α} {head : Token}
    {behind : List Token} {value : α} (read : terminal.read head = some value) :
    TurnsOutAlike first other rest name (.token terminal) (head :: behind) (some (value, 1)) := by
  intro front same _ _ _ start
  rcases front with _ | ⟨token, front⟩
  · obtain ⟨rfl, rfl⟩ := List.cons.inj same
    rcases Terminal.read_of_passesName renames (start rfl) with ⟨_, _, _, again⟩ | ⟨none, _⟩
    · exact ⟨_, _, .token again, .inside Nat.one_pos⟩
    · rw [read] at none
      cases none
  · obtain ⟨rfl, rfl⟩ := List.cons.inj same
    exact ⟨_, _, .token read, .same⟩

theorem tokenMissed (renames : Renames first other) {terminal : Terminal α}
    (unread : tokens.head?.bind terminal.read = none) :
    TurnsOutAlike first other rest name (.token terminal) tokens none := by
  rintro front rfl _ _ _ start
  rcases front with _ | ⟨token, front⟩
  · rcases Terminal.read_of_passesName renames (start rfl) with ⟨_, _, read, _⟩ | ⟨_, none⟩
    · simp [read] at unread
    · exact ⟨_, _, .tokenMissed (by simpa using none), .same⟩
  · exact ⟨_, _, .tokenMissed unread, .same⟩

/-- The second part stands in front of the name or right at it, where the first one has ended in
the word `let`, or it is behind the name and the same. -/
theorem sequence {left : Phrase α} {right : Phrase β} {later : List Miss} {value : α}
    {taken : Nat} {result : Option (β × Nat)}
    (front : Run name left tokens misses (some (value, taken)))
    (behind : Run name right (tokens.drop taken) later result)
    (alikeFront : TurnsOutAlike first other rest name left tokens (some (value, taken)))
    (alikeBehind : TurnsOutAlike first other rest name right (tokens.drop taken) result) :
    TurnsOutAlike first other rest name (.sequence left right) tokens
      (further (fun more => (value, more)) taken result) := by
  rintro before rfl ends inside tranquil start
  rw [Phrase.inBody_sequence_iff] at inside
  rw [Phrase.tranquil_sequence_iff] at tranquil
  obtain ⟨_, _, again, alike⟩ := alikeFront rfl ends inside.1 tranquil.1 fun none =>
    (Bool.and_eq_true _ _ |>.mp (start none)).1
  obtain ⟨_, rfl⟩ := alike.some
  obtain ⟨_, _, next, near, far⟩ := behind.exists_behind fun le =>
    alikeBehind (List.drop_append_of_le_length le) (ends.drop taken) inside.2 tranquil.2.1
      fun none => by
        rcases front.endsInLet_of_drop inside.1 ends le none with ⟨rfl, rfl⟩ | atLet
        · have passes := (Bool.and_eq_true _ _ |>.mp (start rfl)).2
          rcases Bool.or_eq_true _ _ |>.mp passes with consumes | passes
          · cases front.progress consumes rfl
          · exact passes
        · exact tranquil.2.2.resolve_left (by simp [atLet])
  exact ⟨_, _, .sequence again next, alike.behind Prod.mk near far⟩

theorem choiceFirst {left right : Phrase α} {found : α × Nat}
    (inner : TurnsOutAlike first other rest name left tokens (some found)) :
    TurnsOutAlike first other rest name (.choice left right) tokens (some found) := by
  intro front same ends inside tranquil start
  rw [Phrase.inBody_choice_iff] at inside
  rw [Phrase.tranquil_choice_iff] at tranquil
  obtain ⟨notes, again, run, alike⟩ := inner same ends inside.1 tranquil.1 fun none =>
    (Bool.and_eq_true _ _ |>.mp (start none)).1
  obtain ⟨_, rfl⟩ := alike.some
  exact ⟨notes, _, .choiceFirst run, alike⟩

theorem choiceSecond {left right : Phrase α} {found : Option (α × Nat)}
    (missed : TurnsOutAlike first other rest name left tokens none)
    (inner : TurnsOutAlike first other rest name right tokens found) :
    TurnsOutAlike first other rest name (.choice left right) tokens found := by
  intro front same ends inside tranquil start
  rw [Phrase.inBody_choice_iff] at inside
  rw [Phrase.tranquil_choice_iff] at tranquil
  obtain ⟨_, _, again, none⟩ := missed same ends inside.1 tranquil.1 fun none =>
    (Bool.and_eq_true _ _ |>.mp (start none)).1
  obtain rfl := none.none
  obtain ⟨_, _, next, alike⟩ := inner same ends inside.2 tranquil.2 fun none =>
    (Bool.and_eq_true _ _ |>.mp (start none)).2
  exact ⟨_, _, .choiceSecond again next, alike⟩

/-- As for two parts in a row, with the rest of the repetition as the second one. -/
theorem many {body : Phrase α} {later : List Miss} {item : α} {items : List α} {taken more : Nat}
    (consumes : body.consumes = true) (front : Run name body tokens misses (some (item, taken)))
    (behind : Run name (.many body) (tokens.drop taken) later (some (items, more)))
    (alikeFront : TurnsOutAlike first other rest name body tokens (some (item, taken)))
    (alikeBehind : TurnsOutAlike first other rest name (.many body) (tokens.drop taken)
      (some (items, more))) :
    TurnsOutAlike first other rest name (.many body) tokens
      (some (item :: items, taken + more)) := by
  rintro before rfl ends inside tranquil start
  have whole := tranquil
  rw [Phrase.tranquil_many_iff] at tranquil
  obtain ⟨_, _, again, alike⟩ := alikeFront rfl ends inside tranquil.1 start
  obtain ⟨_, rfl⟩ := alike.some
  obtain ⟨_, another, next, near, far⟩ := behind.exists_behind fun le =>
    alikeBehind (List.drop_append_of_le_length le) (ends.drop taken) inside whole fun none => by
      rcases front.endsInLet_of_drop inside ends le none with ⟨rfl, _⟩ | atLet
      · exact start rfl
      · exact tranquil.2.resolve_left (by simp [atLet])
  have both := alike.behind List.cons near far
  obtain ⟨_, rfl⟩ : ∃ items, another = some (items, _) := by
    rcases Nat.lt_or_ge before.length taken with lt | le
    · exact ⟨_, far lt⟩
    · exact (near le).some
  exact ⟨_, _, .many consumes again next, both⟩

theorem operationMissed (renames : Renames first other) {operand : Phrase α}
    (unread : Recognizer.operator.look tokens = none) :
    TurnsOutAlike first other rest name (.operation operand) tokens none := by
  rintro front rfl _ _ _ _
  refine ⟨_, _, .operationMissed (look_operator_eq_none_iff.mpr ?_), .same⟩
  rcases front with _ | ⟨token, front⟩
  · rintro _ ⟨⟩ symbol
    rw [renames.again] at symbol
    cases symbol
  · simpa using look_operator_eq_none_iff.mp unread

/-- An operator does not end in the word in front of the name, so it does not end there. -/
theorem lt_of_look_operator (renames : Renames first other) {operator : Operator}
    {front : List Token} {taken : Nat} (ends : EndsInLet front)
    (read : Recognizer.operator.look (front ++ first :: rest) = some (operator, taken)) :
    taken < front.length := by
  have here : (front ++ first :: rest)[front.length]? = some first := by simp
  refine Nat.lt_of_le_of_ne (le_of_look_operator read here renames.kind) fun all => ?_
  have positive := (look_operator_passes read).1
  have some : front ≠ [] := List.ne_nil_of_length_pos (by omega)
  have last := List.getLast?_eq_getLast_of_ne_nil some
  have symbol := kind_last_operator read (front.getLast some) (by
    rw [all, List.take_left]
    exact last)
  rw [kind_of_isWord (ends _ last)] at symbol
  cases symbol

theorem operation (renames : Renames first other) {operand : Phrase α} {operator : Operator}
    {taken : Nat} {found : Option (α × Nat)} (consumes : operand.consumes = true)
    (read : Recognizer.operator.look tokens = some (operator, taken))
    (run : Run name operand (tokens.drop taken) misses found)
    (inner : TurnsOutAlike first other rest name operand (tokens.drop taken) found) :
    TurnsOutAlike first other rest name (.operation operand) tokens
      (further (fun value => (operator, value)) taken found) := by
  rintro front rfl ends inside tranquil _
  have lt := lt_of_look_operator renames ends read
  have again : Recognizer.operator.look (front ++ other :: rest) = some (operator, taken) := by
    refine look_operator_congr read ?_
    rw [List.take_append_of_le_length lt, List.take_append_of_le_length lt]
  obtain ⟨_, _, next, near, far⟩ := run.exists_behind fun le =>
    inner (List.drop_append_of_le_length le) (ends.drop taken) inside tranquil
      fun none => absurd (List.drop_eq_nil_iff.mp none) (Nat.not_le.mpr lt)
  have operators : SameBut front.length (some (operator, taken)) (some (operator, taken)) := .same
  exact ⟨_, _, .operation consumes again next, operators.behind Prod.mk near far⟩

theorem map {build : α → β} {body : Phrase α} {found : Option (α × Nat)}
    (inner : TurnsOutAlike first other rest name body tokens found) :
    TurnsOutAlike first other rest name (.map build body) tokens (further build 0 found) := by
  intro front same ends inside tranquil start
  obtain ⟨notes, again, run, alike⟩ := inner same ends inside tranquil start
  have whole := alike.further build 0
  rw [Nat.zero_add] at whole
  exact ⟨notes, _, .map run, whole⟩

/-- The other name has the place of the one that stood there. -/
theorem located (renames : Renames first other) {build : Position → α → β} {body : Phrase α}
    {found : Option (α × Nat)} (consumes : body.consumes = true)
    (inner : TurnsOutAlike first other rest name body tokens found) :
    TurnsOutAlike first other rest name (.located build body) tokens
      (further (build ((tokens.head?.map Token.position).getD Position.start)) 0 found) := by
  rintro front rfl ends inside tranquil start
  obtain ⟨notes, again, run, alike⟩ := inner rfl ends inside tranquil start
  have position : (front ++ other :: rest).head?.map Token.position =
      (front ++ first :: rest).head?.map Token.position := by
    rcases front with _ | ⟨_, _⟩
    · exact congrArg some renames.position
    · rfl
  have whole := alike.further (build (((front ++ first :: rest).head?.map
    Token.position).getD Position.start)) 0
  rw [Nat.zero_add] at whole
  refine ⟨notes, _, .located consumes run, ?_⟩
  rwa [position]

end TurnsOutAlike

/-- Every run of a part of a body turns out the same when the name behind a word `let` is
another. -/
theorem Run.renamed (renames : Renames first other) {name : RuleName} {phrase : Phrase α}
    {tokens : List Token} {misses : List Miss} {found : Option (α × Nat)}
    (run : Run name phrase tokens misses found) :
    ∀ {front : List Token}, tokens = front ++ first :: rest → EndsInLet front →
      phrase.inBody = true → phrase.Tranquil = true →
      (front = [] → phrase.passesName = true) →
      ∃ notes again, Run name phrase (front ++ other :: rest) notes again ∧
        SameBut front.length found again := by
  induction run with
  | token read => exact TurnsOutAlike.token renames read
  | tokenMissed unread => exact TurnsOutAlike.tokenMissed renames unread
  | @reference _ _ symbol _ _ _ _ ih =>
      intro front same ends inside _ start
      obtain ⟨notes, again, run, alike⟩ := ih same ends (definition_inBody symbol inside)
        (definition_tranquil symbol inside) fun none => by cases start none
      exact ⟨notes, again, .reference run, alike⟩
  | sequenceMissed _ ih =>
      intro front same ends inside tranquil start
      rw [Phrase.inBody_sequence_iff] at inside
      rw [Phrase.tranquil_sequence_iff] at tranquil
      obtain ⟨notes, again, run, alike⟩ := ih same ends inside.1 tranquil.1 fun none =>
        (Bool.and_eq_true _ _ |>.mp (start none)).1
      obtain rfl := alike.none
      exact ⟨notes, _, .sequenceMissed run, .same⟩
  | sequence first second ihFirst ihSecond =>
      exact TurnsOutAlike.sequence first second ihFirst ihSecond
  | choiceFirst _ ih => exact TurnsOutAlike.choiceFirst ih
  | choiceSecond _ _ ihLeft ihRight => exact TurnsOutAlike.choiceSecond ihLeft ihRight
  | optional _ ih =>
      intro front same ends inside tranquil start
      obtain ⟨notes, again, run, alike⟩ := ih same ends inside tranquil start
      cases alike with
      | same => exact ⟨notes, _, .optional run, .same⟩
      | inside lt => exact ⟨notes, _, .optional run, .inside lt⟩
  | optionalMissed _ ih =>
      intro front same ends inside tranquil start
      obtain ⟨notes, again, run, alike⟩ := ih same ends inside tranquil start
      obtain rfl := alike.none
      exact ⟨notes, _, .optionalMissed run, .same⟩
  | manyEnd _ ih =>
      intro front same ends inside tranquil start
      rw [Phrase.tranquil_many_iff] at tranquil
      obtain ⟨notes, again, run, alike⟩ := ih same ends inside tranquil.1 start
      obtain rfl := alike.none
      exact ⟨notes, _, .manyEnd run, .same⟩
  | many consumes inner others ihInner ihOthers =>
      exact TurnsOutAlike.many consumes inner others ihInner ihOthers
  | flagged _ _ _ | flaggedUnset _ _ _ _ =>
      intro _ _ _ inside
      cases inside
  | operationMissed unread => exact TurnsOutAlike.operationMissed renames unread
  | operation consumes read inner ih => exact TurnsOutAlike.operation renames consumes read inner ih
  | map _ ih => exact TurnsOutAlike.map ih
  | located consumes _ ih => exact TurnsOutAlike.located renames consumes ih

end Names

end CollectionSchema.Peg
