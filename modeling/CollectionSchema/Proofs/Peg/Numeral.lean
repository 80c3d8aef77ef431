import CollectionSchema.Proofs.Peg.Completion

/-!
# Notes about numbers

A number token is refused for its text in one place of the grammar only, and the note
about it says so.  So a literal note points to a number token whose text is no integer
in 64 bits (`Run.literal_at`).

A run that comes to a number token and does not get past it treats all number tokens
alike, as long as it does not ask for an integer: nothing else in the grammar takes a
number, and what is noted about it is the same for each of them (`Run.steady_of_number`).
-/

set_option autoImplicit false

namespace CollectionSchema

/-- Whether a token is a number token whose text is no integer in 64 bits. -/
def Token.IsUnusable (token : Token) : Prop :=
  token.kind = .number ∧ Text.integer64? token.lexeme.toList = none

namespace Peg

variable {α β : Type}

/-! ## Where a literal note points -/

theorem Terminal.literal_misses {name : RuleName} {terminal : Terminal α} {tokens : List Token}
    (unread : tokens.head?.bind terminal.read = none) :
    ∀ miss ∈ terminal.misses name tokens.head?, miss.literal = true →
      ∃ token ∈ tokens.head?, token.IsUnusable := by
  rcases tokens with _ | ⟨first, rest⟩
  · cases terminal <;> simp [misses]
  · cases terminal <;> simp only [misses, List.head?_cons]
    case number =>
      split
      case isTrue kind =>
        refine fun _ _ _ => ⟨first, rfl, kind, ?_⟩
        simpa [Terminal.read, kind] using unread
      case isFalse => simp
    all_goals simp

/-- A literal note points to a number token whose text is no integer in 64 bits. -/
theorem Run.literal_at {name : RuleName} {phrase : Phrase α} {tokens : List Token}
    {misses : List Miss} {found : Option (α × Nat)} (run : Run name phrase tokens misses found) :
    ∀ miss ∈ misses, miss.literal = true →
      ∃ token ∈ tokens[miss.position]?, token.IsUnusable := by
  have behind : ∀ {tokens : List Token} {later : List Miss} {taken : Nat},
      (∀ miss ∈ later, miss.literal = true →
        ∃ token ∈ (tokens.drop taken)[miss.position]?, token.IsUnusable) →
      ∀ miss ∈ later.map (Miss.shift taken), miss.literal = true →
        ∃ token ∈ tokens[miss.position]?, token.IsUnusable := by
    intro tokens later taken inner miss member literal
    obtain ⟨noted, inside, rfl⟩ := List.mem_map.mp member
    have there := inner noted inside literal
    rwa [List.getElem?_drop] at there
  induction run with
  | token _ => exact nofun
  | @tokenMissed _ name terminal tokens unread =>
      intro miss member literal
      have there := Terminal.literal_misses unread miss member literal
      rwa [Terminal.misses_position _ _ _ miss member, ← List.head?_eq_getElem?]
  | sequence _ _ ihLeft ihRight | many _ _ _ ihLeft ihRight =>
      intro miss member
      exact (List.mem_append.mp member).elim (ihLeft miss) (behind ihRight miss)
  | choiceSecond _ _ ihLeft ihRight =>
      intro miss member
      exact (List.mem_append.mp member).elim (ihLeft miss) (ihRight miss)
  | flagged _ _ ih => exact behind (by rwa [List.drop_one, List.tail_cons])
  | operation _ _ _ ih => exact behind ih
  | operationMissed _ => simp
  | reference _ ih | sequenceMissed _ ih | choiceFirst _ ih | optional _ ih | optionalMissed _ ih
  | manyEnd _ ih | flaggedUnset _ _ _ ih | map _ ih | located _ _ ih => exact ih

/-! ## Other numbers in the same place -/

/-- Nothing is noted behind a place or taken from there on, and what is noted there asks for no
integer. -/
structure Halts (place : Nat) (misses : List Miss) (found : Option (α × Nat)) : Prop where
  noted : ∀ miss ∈ misses, miss.position ≤ place
  taken : ∀ value count, found = some (value, count) → count ≤ place
  plain : ∀ miss ∈ misses, miss.position = place → miss.literal = false

namespace Halts

variable {place : Nat} {misses later : List Miss} {found : Option (α × Nat)}

theorem upTo (halts : Halts place misses found) : UpTo place misses found :=
  ⟨halts.noted, halts.taken⟩

theorem missed {other : Option (α × Nat)} (halts : Halts place misses other) :
    Halts (α := β) place misses none :=
  ⟨halts.noted, nofun, halts.plain⟩

theorem of_found {other : Option (β × Nat)} (halts : Halts place misses found)
    (counted : ∀ value count, other = some (value, count) →
      ∃ value, found = some (value, count)) : Halts place misses other :=
  ⟨halts.noted, (halts.upTo.of_found counted).taken, halts.plain⟩

theorem first {other : Option (β × Nat)} (halts : Halts place (misses ++ later) found)
    (taken : ∀ value count, other = some (value, count) → count ≤ place) :
    Halts place misses other :=
  ⟨(halts.upTo.first taken).noted, taken,
    fun miss member => halts.plain miss (List.mem_append_left later member)⟩

theorem second (halts : Halts place (misses ++ later) found) : Halts place later found :=
  ⟨halts.upTo.second.noted, halts.taken,
    fun miss member => halts.plain miss (List.mem_append_right misses member)⟩

theorem unshift {build : α → β} (halts : Halts place misses (further build 0 found)) :
    Halts place misses found :=
  ⟨halts.noted, halts.upTo.unshift.taken, halts.plain⟩

/-- A run behind some tokens that halts at a place has these tokens in front of it. -/
theorem behind {name : RuleName} {phrase : Phrase α} {tokens : List Token}
    (run : Run name phrase tokens misses found) (build : α → β) {taken : Nat}
    (halts : Halts place (misses.map (Miss.shift taken)) (further build taken found)) :
    taken ≤ place ∧ Halts (place - taken) misses found := by
  obtain ⟨le, inner⟩ := halts.upTo.behind run build
  refine ⟨le, inner.noted, inner.taken, fun miss member same => ?_⟩
  refine halts.plain (miss.shift taken) (List.mem_map_of_mem member) ?_
  rw [Miss.shift_position]
  omega

end Halts

/-- Two lists of tokens that are the same in front of a place, where both have a number token. -/
structure NumberAt (place : Nat) (tokens others : List Token) : Prop where
  same : others.take place = tokens.take place
  first : ∃ token ∈ tokens[place]?, token.kind = .number
  second : ∃ token ∈ others[place]?, token.kind = .number

namespace NumberAt

variable {place : Nat} {tokens others : List Token}

theorem symm (numbers : NumberAt place tokens others) : NumberAt place others tokens :=
  ⟨numbers.same.symm, numbers.second, numbers.first⟩

theorem drop (numbers : NumberAt place tokens others) {count : Nat} (le : count ≤ place) :
    NumberAt (place - count) (tokens.drop count) (others.drop count) := by
  refine ⟨drop_of_take numbers.same count, ?_, ?_⟩ <;>
    rw [List.getElem?_drop, Nat.add_sub_cancel' le]
  · exact numbers.first
  · exact numbers.second

/-- The first tokens are the same, or both are numbers. -/
theorem head (numbers : NumberAt place tokens others) :
    others.head? = tokens.head? ∨ place = 0 ∧ ∃ first ∈ tokens.head?, first.kind = .number ∧
      ∃ second ∈ others.head?, second.kind = .number := by
  rcases Nat.eq_zero_or_pos place with rfl | positive
  · obtain ⟨first, here, kind⟩ := numbers.first
    obtain ⟨second, there, also⟩ := numbers.second
    rw [← List.head?_eq_getElem?] at here there
    exact .inr ⟨rfl, first, here, kind, second, there, also⟩
  · exact .inl (head_of_take positive numbers.same)

end NumberAt

/-- What is not a number token is neither found in a number token nor noted differently. -/
theorem Terminal.missed_of_number {name : RuleName} {terminal : Terminal α} {first second : Token}
    (kind : first.kind = .number) (also : second.kind = .number)
    (plain : ∀ miss ∈ terminal.misses name (some first), miss.literal = false) :
    terminal.read second = none ∧
      terminal.misses name (some second) = terminal.misses name (some first) := by
  cases terminal <;>
    simp_all [Terminal.read, Terminal.misses, Token.isSymbol, Token.isWord]

namespace Run

variable {name : RuleName} {phrase : Phrase α} {tokens : List Token} {misses : List Miss}
  {found : Option (α × Nat)}

/-- A run that halts at a number token, where it asks for no integer, is a run on every list that
has another number token there. -/
theorem steady_of_number (run : Run name phrase tokens misses found) :
    ∀ {place : Nat} {others : List Token}, Halts place misses found →
      NumberAt place tokens others → Run name phrase others misses found := by
  induction run with
  | token read =>
      intro place others halts numbers
      have positive := halts.taken _ _ rfl
      obtain ⟨behind, rfl⟩ := List.head?_eq_some_iff.mp (head_of_take positive numbers.same)
      exact .token read
  | @tokenMissed _ name terminal tokens unread =>
      intro place others halts numbers
      rcases numbers.head with same | ⟨rfl, first, here, kind, second, there, also⟩
      · rw [← same] at unread ⊢
        exact .tokenMissed unread
      · rw [Option.mem_def.mp here] at halts ⊢
        obtain ⟨missed, notes⟩ := Terminal.missed_of_number kind also fun miss member =>
          halts.plain miss member (Terminal.misses_position _ _ _ miss member)
        rw [← notes, ← Option.mem_def.mp there]
        refine .tokenMissed ?_
        rw [Option.mem_def.mp there]
        exact missed
  | reference _ ih => exact fun halts numbers => .reference (ih halts numbers)
  | sequenceMissed _ ih => exact fun halts numbers => .sequenceMissed (ih halts.missed numbers)
  | sequence left right ihLeft ihRight =>
      intro place others halts numbers
      obtain ⟨le, behind⟩ := halts.second.behind right
      exact .sequence (ihLeft (halts.first (by rintro _ _ ⟨⟩; exact le)) numbers)
        (ihRight behind (numbers.drop le))
  | choiceFirst _ ih => exact fun halts numbers => .choiceFirst (ih halts numbers)
  | choiceSecond _ _ ihLeft ihRight =>
      exact fun halts numbers =>
        .choiceSecond (ihLeft (halts.first nofun) numbers) (ihRight halts.second numbers)
  | optional _ ih =>
      exact fun halts numbers =>
        .optional (ih (halts.of_found (by rintro _ _ ⟨⟩; exact ⟨_, rfl⟩)) numbers)
  | optionalMissed _ ih => exact fun halts numbers => .optionalMissed (ih halts.missed numbers)
  | manyEnd _ ih => exact fun halts numbers => .manyEnd (ih halts.missed numbers)
  | many consumes _ outer ihInner ihOuter =>
      intro place others halts numbers
      obtain ⟨le, behind⟩ := halts.second.behind outer (fun items => _ :: items)
      exact .many consumes (ihInner (halts.first (by rintro _ _ ⟨⟩; exact le)) numbers)
        (ihOuter behind (numbers.drop le))
  | flagged set inner ih =>
      intro place others halts numbers
      obtain ⟨le, behind⟩ := halts.behind inner
      obtain ⟨rest, rfl⟩ := List.head?_eq_some_iff.mp (head_of_take le numbers.same)
      exact .flagged set (ih behind (numbers.drop le))
  | flaggedUnset consumes unset _ ih =>
      intro place others halts numbers
      refine .flaggedUnset consumes (fun token member => ?_) (ih halts.unshift numbers)
      rcases numbers.head with same | ⟨_, _, _, _, second, there, also⟩
      · exact unset token (same ▸ member)
      · obtain rfl : second = token := Option.some.inj (there.symm.trans member)
        simp [Token.isSymbol, also]
  | operationMissed unread =>
      intro place others halts numbers
      rcases numbers.head with same | ⟨_, _, _, _, second, there, also⟩
      · exact .operationMissed (look_operator_eq_none_iff.mpr
          (by rw [same]; exact look_operator_eq_none_iff.mp unread))
      · refine .operationMissed (look_operator_eq_none_iff.mpr fun token member symbol => ?_)
        obtain rfl : second = token := Option.some.inj (there.symm.trans member)
        rw [also] at symbol
        cases symbol
  | @operation _ _ _ tokens _ taken _ _ consumes read inner ih =>
      intro place others halts numbers
      obtain ⟨le, behind⟩ := halts.behind inner
      refine .operation consumes ?_ (ih behind (numbers.drop le))
      rcases Nat.lt_or_eq_of_le le with less | rfl
      · exact look_operator_congr read (take_of_take less numbers.same)
      · -- A number token is no second mark of an operator.
        refine look_operator_again read numbers.same fun next member continues => ?_
        obtain ⟨second, there, also⟩ := numbers.second
        rw [List.head?_drop] at member
        obtain rfl : second = next := Option.some.inj (there.symm.trans member)
        rw [continues.symbol.1] at also
        cases also
  | map _ ih => exact fun halts numbers => .map (ih halts.unshift numbers)
  | @located _ _ _ build _ tokens _ found consumes inner ih =>
      intro place others halts numbers
      have again := ih halts.unshift numbers
      rcases found with _ | ⟨value, count⟩
      · exact .located consumes again
      · have progress := inner.progress consumes rfl
        have le := halts.unshift.taken _ _ rfl
        rw [← head_of_take (Nat.lt_of_lt_of_le progress le) numbers.same]
        exact .located consumes again

end Run

end Peg

end CollectionSchema
