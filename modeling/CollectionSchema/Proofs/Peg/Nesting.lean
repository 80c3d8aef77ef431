import CollectionSchema.Proofs.Peg.Inversion

/-!
# Nesting

A pair of brackets is balanced in every match of every symbol.  More than that: no
run ever looks past a closing bracket that was not opened in the same run, not
even in an alternative that is given up later (`Run.nested`).  So everything that
was tried between two brackets, in vain or not, was tried in front of the closing
one (`Run.between_le`).
-/

set_option autoImplicit false

namespace CollectionSchema.Peg

variable {α β : Type}

/-! ## Levels -/

/-- A pair of marks, an opening and a closing one. -/
structure Brackets where
  opening : Char
  closing : Char

namespace Brackets

/-- Parentheses. -/
def parentheses : Brackets := ⟨'(', ')'⟩

/-- Braces. -/
def braces : Brackets := ⟨'\x7b', '\x7d'⟩

/-- Square brackets. -/
def squares : Brackets := ⟨'[', ']'⟩

/-- The level behind a token.  There is none behind a closing bracket that nothing opened. -/
def step (brackets : Brackets) (level : Nat) (token : Token) : Option Nat :=
  if token.isSymbol brackets.opening then some (level + 1)
  else if token.isSymbol brackets.closing then
    match level with
    | 0 => none
    | lower + 1 => some lower
  else some level

/-- The level behind some tokens. -/
def climb (brackets : Brackets) (level : Nat) (tokens : List Token) : Option Nat :=
  tokens.foldlM brackets.step level

variable (brackets : Brackets)

@[simp] theorem climb_nil (level : Nat) : brackets.climb level [] = some level := rfl

@[simp] theorem climb_cons (level : Nat) (first : Token) (rest : List Token) :
    brackets.climb level (first :: rest) =
      (brackets.step level first).bind fun next => brackets.climb next rest := rfl

theorem climb_append (level : Nat) (first second : List Token) :
    brackets.climb level (first ++ second) =
      (brackets.climb level first).bind fun next => brackets.climb next second :=
  List.foldlM_append

theorem climb_take_add (level first second : Nat) (tokens : List Token) :
    brackets.climb level (tokens.take (first + second)) =
      (brackets.climb level (tokens.take first)).bind fun next =>
        brackets.climb next ((tokens.drop first).take second) := by
  rw [List.take_add, climb_append]

/-- Some tokens lead as far up or down from every higher level. -/
theorem climb_lift {level after : Nat} {tokens : List Token}
    (climbs : brackets.climb level tokens = some after) (more : Nat) :
    brackets.climb (level + more) tokens = some (after + more) := by
  induction tokens generalizing level with
  | nil =>
      cases climbs
      rfl
  | cons first rest ih =>
      obtain ⟨next, step, climbs⟩ := Option.bind_eq_some_iff.mp climbs
      have lifted : brackets.step (level + more) first = some (next + more) := by
        unfold Brackets.step at step ⊢
        split
        case isTrue opening =>
          rw [if_pos opening] at step
          cases step
          exact congrArg some (by omega)
        case isFalse opening =>
          rw [if_neg opening] at step
          split
          case isTrue closing =>
            rw [if_pos closing] at step
            cases level with
            | zero => cases step
            | succ level =>
                cases step
                rw [Nat.succ_add]
          case isFalse closing =>
            rw [if_neg closing] at step
            cases step
            rfl
      rw [climb_cons, lifted]
      exact ih climbs

end Brackets

/-! ## The level of a phrase -/

/-- The level behind every match of a phrase, if the phrase is balanced but for brackets that it
names itself. -/
def Phrase.level (brackets : Brackets) : Nat → {α : Type} → Phrase α → Option Nat
  | level, _, .token terminal => brackets.step level terminal.sample
  | level, _, .reference _ => some level
  | level, _, .sequence first second =>
      (first.level brackets level).bind fun next => second.level brackets next
  | level, _, .choice first second =>
      if first.level brackets level = second.level brackets level then
        first.level brackets level
      else none
  | level, _, .optional body | level, _, .many body =>
      if body.level brackets level = some level then some level else none
  | level, _, .flagged character body =>
      if character = brackets.opening ∨ character = brackets.closing then none
      else body.level brackets level
  | level, _, .operation body | level, _, .map _ body | level, _, .located _ body =>
      body.level brackets level

/-- Brackets that are balanced in the definitions of all symbols and that no operator uses. -/
structure Brackets.Balanced (brackets : Brackets) : Prop where
  definitions : ∀ {α : Type} (symbol : Nonterminal α),
    (definition symbol).level brackets 0 = some 0
  operators : ∀ operator : Operator, brackets.opening ∉ operator.spelling.toList ∧
    brackets.closing ∉ operator.spelling.toList
  distinct : brackets.closing ≠ brackets.opening

theorem Brackets.balanced_parentheses : parentheses.Balanced := by
  refine ⟨fun symbol => ?_, fun operator => ?_, by decide⟩
  · cases symbol <;> rfl
  · cases operator <;> decide

theorem Brackets.balanced_braces : braces.Balanced := by
  refine ⟨fun symbol => ?_, fun operator => ?_, by decide⟩
  · cases symbol <;> rfl
  · cases operator <;> decide

theorem Brackets.balanced_squares : squares.Balanced := by
  refine ⟨fun symbol => ?_, fun operator => ?_, by decide⟩
  · cases symbol <;> rfl
  · cases operator <;> decide

/-! ## Levels along a run -/

section Steps

variable {brackets : Brackets}

theorem Brackets.step_of_other {level : Nat} {token : Token}
    (notOpening : token.isSymbol brackets.opening = false)
    (notClosing : token.isSymbol brackets.closing = false) :
    brackets.step level token = some level := by
  unfold Brackets.step
  simp [notOpening, notClosing]

theorem Brackets.step_of_read {terminal : Terminal α} {token : Token} {value : α}
    (read : terminal.read token = some value) (level : Nat) :
    brackets.step level token = brackets.step level terminal.sample := by
  unfold Brackets.step
  simp only [Terminal.isSymbol_of_read read]

/-- A mark inside the spelling of an operator is no bracket. -/
theorem Brackets.step_of_operator (balanced : brackets.Balanced) {operator : Operator}
    {before : String} {token : Token} (spelled : operator.spelling = before ++ token.lexeme)
    (level : Nat) : brackets.step level token = some level := by
  have other : ∀ character, character ∉ operator.spelling.toList →
      token.isSymbol character = false := by
    intro character foreign
    refine Bool.eq_false_iff.mpr fun mark => foreign ?_
    rw [spelled, (isSymbol_iff.mp mark).2]
    simp
  exact step_of_other (other _ (balanced.operators operator).1)
    (other _ (balanced.operators operator).2)

theorem Brackets.climb_operator (balanced : brackets.Balanced) {tokens : List Token}
    {operator : Operator} {taken : Nat}
    (read : Recognizer.operator.look tokens = some (operator, taken)) (level : Nat) :
    brackets.climb level (tokens.take taken) = some level := by
  rcases look_operator_cases read with
    ⟨first, rest, rfl, rfl, _, single, _⟩ | ⟨first, second, rest, rfl, rfl, _, _, single, double⟩
  · have step := step_of_operator balanced
      ((spelling_of_ofSpelling single).trans String.empty_append.symm) level
    simp [step]
  · obtain ⟨alone, single⟩ := Option.isSome_iff_exists.mp single
    have one := step_of_operator balanced
      ((spelling_of_ofSpelling single).trans String.empty_append.symm) level
    have two := step_of_operator balanced (spelling_of_ofSpelling double) level
    simp [one, two]

end Steps

/-- No note points behind a closing bracket that was not opened, and a match leads to a level. -/
structure Nested (brackets : Brackets) (level after : Nat) (tokens : List Token)
    (misses : List Miss) (found : Option (α × Nat)) : Prop where
  noted : ∀ miss ∈ misses, (brackets.climb level (tokens.take miss.position)).isSome = true
  taken : ∀ value count, found = some (value, count) →
    brackets.climb level (tokens.take count) = some after

namespace Nested

variable {brackets : Brackets} {level next after : Nat} {tokens : List Token}
  {misses later : List Miss} {found : Option (α × Nat)}

theorem missed {other : Option (β × Nat)} (nested : Nested brackets level next tokens misses found)
    (none : other = none) : Nested brackets level after tokens misses other :=
  ⟨nested.noted, fun _ _ matched => nomatch none.symm.trans matched⟩

theorem unshift {build : α → β} (nested : Nested brackets level after tokens misses found) :
    Nested brackets level after tokens misses (further build 0 found) := by
  refine ⟨nested.noted, fun value count matched => ?_⟩
  obtain ⟨inner, more, rfl, _, rfl⟩ := further_eq_some_iff.mp matched
  rw [Nat.zero_add]
  exact nested.taken inner more rfl

theorem append (first : ∀ miss ∈ misses,
      (brackets.climb level (tokens.take miss.position)).isSome = true)
    (second : Nested brackets level after tokens later found) :
    Nested brackets level after tokens (misses ++ later) found :=
  ⟨fun miss member => (List.mem_append.mp member).elim (first miss) (second.noted miss),
    second.taken⟩

/-- What is nested behind some tokens is nested with them. -/
theorem behind (build : α → β) {taken : Nat}
    (climbs : brackets.climb level (tokens.take taken) = some next)
    (nested : Nested brackets next after (tokens.drop taken) misses found) :
    Nested brackets level after tokens (misses.map (Miss.shift taken))
      (further build taken found) := by
  refine ⟨fun miss member => ?_, fun value count matched => ?_⟩
  · obtain ⟨inner, noted, rfl⟩ := List.mem_map.mp member
    rw [Miss.shift_position, Brackets.climb_take_add, climbs]
    exact nested.noted inner noted
  · obtain ⟨inner, more, rfl, _, rfl⟩ := further_eq_some_iff.mp matched
    rw [Brackets.climb_take_add, climbs]
    exact nested.taken inner more rfl

/-- What is nested at the bottom is nested at every level. -/
theorem lift (nested : Nested brackets 0 0 tokens misses found) (level : Nat) :
    Nested brackets level level tokens misses found := by
  refine ⟨fun miss member => ?_, fun value count matched => ?_⟩
  · obtain ⟨after, climbs⟩ := Option.isSome_iff_exists.mp (nested.noted miss member)
    have lifted := brackets.climb_lift climbs level
    rw [Nat.zero_add] at lifted
    rw [lifted]
    rfl
  · have lifted := brackets.climb_lift (nested.taken value count matched) level
    rwa [Nat.zero_add] at lifted

end Nested

/-- Every run is nested. -/
theorem Run.nested {brackets : Brackets} (balanced : brackets.Balanced) {name : RuleName}
    {phrase : Phrase α} {tokens : List Token} {misses : List Miss} {found : Option (α × Nat)}
    (run : Run name phrase tokens misses found) :
    ∀ {level after : Nat}, phrase.level brackets level = some after →
      Nested brackets level after tokens misses found := by
  induction run with
  | @token _ _ _ first rest _ read =>
      intro level after known
      refine ⟨List.forall_mem_nil _, fun value count matched => ?_⟩
      cases matched
      have step := (Brackets.step_of_read read level).trans known
      simp [step]
  | tokenMissed _ =>
      intro level after _
      refine ⟨fun miss member => ?_, nofun⟩
      rw [Terminal.misses_position _ _ _ miss member]
      rfl
  | @reference _ _ symbol _ _ _ _ ih =>
      intro level after known
      cases known
      exact (ih (balanced.definitions symbol)).lift level
  | sequenceMissed _ ih =>
      intro level after known
      obtain ⟨next, first, _⟩ := Option.bind_eq_some_iff.mp known
      exact (ih first).missed rfl
  | sequence _ _ ihLeft ihRight =>
      intro level after known
      obtain ⟨next, first, second⟩ := Option.bind_eq_some_iff.mp known
      have left := ihLeft first
      exact .append left.noted (.behind _ (left.taken _ _ rfl) (ihRight second))
  | choiceFirst _ ih =>
      intro level after known
      rw [Phrase.level] at known
      split at known
      case isTrue => exact ih known
      case isFalse => cases known
  | choiceSecond _ _ ihLeft ihRight =>
      intro level after known
      rw [Phrase.level] at known
      split at known
      case isTrue same => exact .append (ihLeft known).noted (ihRight (same ▸ known))
      case isFalse => cases known
  | optional _ ih =>
      intro level after known
      rw [Phrase.level] at known
      split at known
      case isTrue same =>
        cases known
        exact ⟨(ih same).noted, by rintro _ _ ⟨⟩; exact (ih same).taken _ _ rfl⟩
      case isFalse => cases known
  | optionalMissed _ ih | manyEnd _ ih =>
      intro level after known
      rw [Phrase.level] at known
      split at known
      case isTrue same =>
        cases known
        exact ⟨(ih same).noted, by rintro _ _ ⟨⟩; rfl⟩
      case isFalse => cases known
  | @many _ _ _ _ _ _ item _ _ _ _ _ _ ihInner ihOthers =>
      intro level after known
      have rest := known
      rw [Phrase.level] at known
      split at known
      case isTrue same =>
        cases known
        have inner := ihInner same
        have others := Nested.behind (fun items => item :: items) (inner.taken _ _ rfl)
          (ihOthers rest)
        exact .append inner.noted others
      case isFalse => cases known
  | @flagged _ _ _ _ first rest _ _ set _ ih =>
      intro level after known
      rw [Phrase.level] at known
      split at known
      case isTrue => cases known
      case isFalse other =>
        obtain ⟨notOpening, notClosing⟩ := not_or.mp other
        have step : brackets.step level first = some level :=
          Brackets.step_of_other (isSymbol_of_ne set notOpening) (isSymbol_of_ne set notClosing)
        have climbs : brackets.climb level ((first :: rest).take 1) = some level := by
          simp [step]
        exact .behind _ climbs (ih known)
  | flaggedUnset _ _ _ ih =>
      intro level after known
      rw [Phrase.level] at known
      split at known
      case isTrue => cases known
      case isFalse => exact (ih known).unshift
  | operationMissed _ =>
      intro level after _
      refine ⟨fun miss member => ?_, nofun⟩
      rw [List.mem_singleton.mp member]
      rfl
  | operation _ read _ ih =>
      intro level after known
      exact .behind _ (Brackets.climb_operator balanced read level) (ih known)
  | map _ ih | located _ _ ih =>
      intro level after known
      exact (ih known).unshift

/-! ## Between two brackets -/

section Between

variable {brackets : Brackets} {tokens : List Token}

theorem Brackets.climb_take_of_le {level first second : Nat} (le : first ≤ second)
    (climbs : (brackets.climb level (tokens.take second)).isSome = true) :
    (brackets.climb level (tokens.take first)).isSome = true := by
  obtain ⟨more, rfl⟩ := Nat.exists_eq_add_of_le le
  rw [climb_take_add] at climbs
  rcases before : brackets.climb level (tokens.take first) with _ | next
  · rw [before] at climbs
    cases climbs
  · rfl

theorem Brackets.step_closing (balanced : brackets.Balanced) {token : Token}
    (closing : token.isSymbol brackets.closing = true) : brackets.step 0 token = none := by
  have notOpening := isSymbol_of_ne closing balanced.distinct
  unfold Brackets.step
  simp [closing, notOpening]

/-- What is tried between two brackets is tried in front of the closing one. -/
theorem Run.between_le (balanced : brackets.Balanced) {name : RuleName} {body : Phrase α}
    (level : body.level brackets 0 = some 0) {misses : List Miss} {value : α} {taken : Nat}
    (run : Run name (.between brackets.opening brackets.closing body) tokens misses
      (some (value, taken))) : ∀ miss ∈ misses, miss.position < taken := by
  obtain ⟨first, rest, inner, count, rfl, _, whole, rfl, rfl⟩ := run.of_behind
  obtain ⟨count, last, others, body, same, read, rfl⟩ := whole.of_before
  have nested := body.nested balanced level
  have closing : last.isSymbol brackets.closing = true := by
    simpa [Terminal.read] using read
  have stop : brackets.climb 0 (rest.take (count + 1)) = none := by
    rw [Brackets.climb_take_add, nested.taken _ _ rfl, same]
    simp [Brackets.step_closing balanced closing]
  intro miss member
  obtain ⟨inside, noted, rfl⟩ := List.mem_map.mp member
  rw [Miss.shift_position]
  by_contra beyond
  have reached := Brackets.climb_take_of_le (by omega : count + 1 ≤ inside.position)
    (nested.noted inside noted)
  rw [stop] at reached
  cases reached

end Between

end CollectionSchema.Peg
