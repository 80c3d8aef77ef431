import CollectionSchema.Proofs.Peg.Alternatives
import CollectionSchema.Proofs.Peg.Variation

/-!
# What is kept around a part

The conditions for exchanging a part are about two phrases next to each other.  Where
nothing is marked there is nothing to show.  A phrase in front of the part is read again
if it looks at no token from the part on, and decorators are read again in front of
every word.  An alternative is given up again if it fails wherever the one behind it is
read.
-/

set_option autoImplicit false

namespace CollectionSchema.Peg

open Phrase (behind before between braced separated)

variable {α β H : Type} {variation : Variation H} {here : H} {name : RuleName}

namespace Phrase

/-! ## What is read -/

theorem Reads.of_reference {symbol : Nonterminal α} {tokens : List Token} {value : α} {taken : Nat}
    (reads : (Phrase.reference symbol).Reads name tokens value taken) :
    (definition symbol).Reads symbol.name tokens value taken := by
  obtain ⟨_, run⟩ := reads
  exact ⟨_, run.tried⟩

theorem Reads.of_map {build : α → β} {body : Phrase α} {tokens : List Token} {value : β}
    {taken : Nat} (reads : (Phrase.map build body).Reads name tokens value taken) :
    ∃ inner, build inner = value ∧ body.Reads name tokens inner taken := by
  obtain ⟨_, run⟩ := reads
  obtain ⟨inner, whole, built⟩ := run.of_map
  exact ⟨inner, built, _, whole⟩

theorem Reads.of_choice {first second : Phrase α} {tokens : List Token} {value : α} {taken : Nat}
    (reads : (Phrase.choice first second).Reads name tokens value taken) :
    first.Reads name tokens value taken ∨ second.Reads name tokens value taken := by
  obtain ⟨_, run⟩ := reads
  rcases run.tried with ⟨_, left⟩ | ⟨_, _, _, right, _⟩
  · exact .inl ⟨_, left⟩
  · exact .inr ⟨_, right⟩

theorem Reads.of_before {terminal : Terminal Unit} {body : Phrase α} {tokens : List Token}
    {value : α} {taken : Nat}
    (reads : (Phrase.before body terminal).Reads name tokens value taken) :
    ∃ count, body.Reads name tokens value count := by
  obtain ⟨_, run⟩ := reads
  obtain ⟨count, _, _, inner, _⟩ := run.of_before
  exact ⟨count, _, inner⟩

/-- What fails at every token that is no word begins with a word. -/
theorem Reads.kind_head {phrase : Phrase α} {tokens : List Token} {value : α} {taken : Nat}
    (reads : phrase.Reads name tokens value taken)
    (missed : ∀ token : Token, token.kind ≠ .identifier → phrase.forecast (some token) = .missed) :
    ∀ token ∈ tokens.head?, token.kind = .identifier := by
  intro token head
  by_contra other
  obtain ⟨_, run⟩ := reads
  have holds := run.forecast
  rw [Option.mem_def.mp head, missed token other] at holds
  cases holds

/-! ## Where nothing is marked -/

section Silent

variable {aside : {β : Type} → Nonterminal β → Bool}
  (closed : ∀ {β : Type} (symbol : Nonterminal β), aside symbol = true →
    (definition symbol).silent variation.marks aside symbol.name = true)

include closed

theorem Ahead.of_silent {first : Phrase α} {second : Phrase β}
    (silent : second.silent variation.marks aside name = true) :
    first.Ahead variation here name second :=
  ⟨fun _ _ part _ => absurd silent (part.not_silent closed)⟩

theorem Instead.of_silent {first second : Phrase α} {follow : List Token → Prop}
    (silent : second.silent variation.marks aside name = true) :
    first.Instead variation here name follow second :=
  ⟨fun _ part _ _ => absurd silent (part.not_silent closed)⟩

/-- What nothing is marked in is kept. -/
theorem Kept.of_silent {phrase : Phrase α} {follow : List Token → Prop}
    (silent : phrase.silent variation.marks aside name = true) :
    phrase.Kept variation here name follow := by
  induction phrase generalizing follow with
  | token terminal =>
      intro marked
      rw [Phrase.silent, marked] at silent
      cases silent
  | reference symbol => trivial
  | sequence first second ihFirst ihSecond =>
      obtain ⟨silentFirst, silentSecond⟩ := Bool.and_eq_true _ _ |>.mp silent
      exact ⟨ihFirst silentFirst, ihSecond silentSecond, .of_silent closed silentSecond⟩
  | choice first second ihFirst ihSecond =>
      obtain ⟨unmarked, parts⟩ := Bool.and_eq_true _ _ |>.mp silent
      obtain ⟨silentFirst, silentSecond⟩ := Bool.and_eq_true _ _ |>.mp parts
      refine ⟨fun marked => ?_, ihFirst silentFirst, ihSecond silentSecond,
        .of_silent closed silentSecond⟩
      rw [marked] at unmarked
      cases unmarked
  | many body ih => exact ⟨ih silent, Ahead.of_silent closed silent⟩
  | optional _ ih | flagged _ _ ih | operation _ ih | map _ _ ih | located _ _ ih => exact ih silent

end Silent

/-! ## In front of the part -/

/-- What is read without a look at the part is read again with other tokens from there on. -/
theorem Reads.in_front {phrase : Phrase α} {front tokens others : List Token} {misses : List Miss}
    {value : α} {taken : Nat} (run : Run name phrase (front ++ tokens) misses (some (value, taken)))
    (bound : ∀ miss ∈ misses, miss.position < front.length) (le : taken ≤ front.length) :
    phrase.Reads name (front ++ others) value taken := by
  refine .steady run bound le ?_
  rw [List.take_left, List.take_left]

theorem Ahead.token {terminal : Terminal α} {second : Phrase β} :
    (Phrase.token terminal).Ahead variation here name second := by
  constructor
  rintro front _ _ _ _ _ _ _ ⟨_, run⟩ le _ _
  have read := run.of_token.1
  exact .in_front run (by rw [read]; exact List.forall_mem_nil _) le

/-- What looks at nothing behind it is read again. -/
theorem Ahead.of_lt {first : Phrase α} {second : Phrase β}
    (sealed : ∀ {tokens : List Token} {misses : List Miss} {value : α} {taken : Nat},
      Run name first tokens misses (some (value, taken)) → ∀ miss ∈ misses, miss.position < taken) :
    first.Ahead variation here name second := by
  constructor
  rintro front _ _ _ _ _ _ _ ⟨_, run⟩ le _ _
  exact .in_front run (fun miss member => Nat.lt_of_lt_of_le (sealed run miss member) le) le

/-- What looks at no more than the next token is read again, if the part does not begin with it. -/
theorem Ahead.of_le {first : Phrase α} {second : Phrase β}
    (bound : ∀ {tokens : List Token} {misses : List Miss} {value : α} {right : β}
      {taken count : Nat}, Run name first tokens misses (some (value, taken)) →
      second.Reads name (tokens.drop taken) right count → 0 < count →
      ∀ miss ∈ misses, miss.position ≤ taken)
    (late : ∀ {tokens : List Token} {value : β} {place size more : Nat},
      Occurs variation.marks name second tokens value place size more → 0 < place) :
    first.Ahead variation here name second := by
  constructor
  rintro front _ _ _ taken more count _ ⟨_, run⟩ le part _
  have positive := late part
  have reads := part.reads
  rw [← variation.drop_front le] at reads
  refine .in_front run (fun miss member => ?_) le
  have := bound run reads (by omega) miss member
  omega

/-- Decorators are read again in front of every word. -/
theorem Ahead.decorators {second : Phrase β}
    (missed : ∀ token : Token, token.kind ≠ .identifier →
      second.forecast (some token) = .missed) :
    (Phrase.many (.reference .decorator)).Ahead variation here name second := by
  constructor
  rintro front _ _ _ taken _ _ one ⟨_, run⟩ le _ reads
  refine decorators_again run ?_ ?_
  · rw [List.take_append_of_le_length le, List.take_append_of_le_length le]
  · rw [variation.drop_front le]
    exact reads.kind_head missed

theorem Ahead.items : (Phrase.reference Nonterminal.item).Ahead variation here name
    (.many (.reference .item)) :=
  .of_lt fun run => item_lt run.tried

theorem Kept.declarations : declarations.Kept variation here .program fun _ => True :=
  ⟨trivial, .of_lt fun run => declaration_lt run.tried⟩

/-- What is given up wherever the alternative is read is given up again. -/
theorem Instead.of_fails {first second : Phrase α} {follow : List Token → Prop}
    (fails : ∀ {tokens : List Token} {value : α} {taken : Nat},
      second.Reads name tokens value taken → first.Fails name tokens) :
    first.Instead variation here name follow second :=
  ⟨fun _ _ _ reads => fails reads⟩

/-- Where a function is read, a collection is given up. -/
theorem Instead.collection {follow : List Token → Prop} :
    (Phrase.map Declaration.collection (.reference .collection)).Instead variation here name follow
      (.map .function (.reference .function)) := by
  refine .of_fails fun reads => .map (.ofReference ?_)
  obtain ⟨_, _, function⟩ := reads.of_map
  exact collection_fails_at_function function.of_reference

/-- Where a function or an index is read, a field is given up. -/
theorem Instead.field {follow : List Token → Prop} :
    (Phrase.map Item.field (before (.reference .field) (.mark ';'))).Instead variation here name
      follow (.choice (.map .function (.reference .function))
        (.map .index (before (.reference .index) (.mark ';')))) := by
  refine .of_fails fun reads => .map (.map (.sequenceFirst (.ofReference ?_)))
  rcases reads.of_choice with function | index
  · obtain ⟨_, _, inner⟩ := function.of_map
    exact field_fails_at_function inner.of_reference
  · obtain ⟨_, _, ended⟩ := index.of_map
    obtain ⟨_, inner⟩ := ended.of_before
    exact field_fails_at_index inner.of_reference

/-- Where an index is read, a function is given up. -/
theorem Instead.function {follow : List Token → Prop} :
    (Phrase.map Item.function (.reference .function)).Instead variation here name follow
      (.map .index (before (.reference .index) (.mark ';'))) := by
  refine .of_fails fun reads => .map (.ofReference ?_)
  obtain ⟨_, _, ended⟩ := reads.of_map
  obtain ⟨_, inner⟩ := ended.of_before
  exact function_fails_at_index inner.of_reference

/-! ## Common shapes -/

/-- A phrase is kept whatever more is known of the tokens behind it. -/
theorem Kept.mono {phrase : Phrase α} {follow other : List Token → Prop}
    (kept : phrase.Kept variation here name follow) (known : ∀ rest, other rest → follow rest) :
    phrase.Kept variation here name other := by
  induction phrase with
  | token terminal => exact fun marked _ reads follows => kept marked reads (known _ follows)
  | reference symbol => trivial
  | sequence first second _ ihSecond => exact ⟨kept.1, ihSecond kept.2.1, kept.2.2⟩
  | choice first second ihFirst ihSecond =>
      exact ⟨fun marked _ reads follows => kept.1 marked reads (known _ follows),
        ihFirst kept.2.1, ihSecond kept.2.2.1,
        ⟨fun missed part follows => kept.2.2.2.missed missed part (known _ follows)⟩⟩
  | many body _ => exact kept
  | optional _ ih | flagged _ _ ih | operation _ ih | map _ _ ih | located _ _ ih => exact ih kept

theorem Refills.of_unmarked {phrase : Phrase α} {follow : List Token → Prop}
    (unmarked : variation.marks.covers name phrase = false) :
    phrase.Refills variation here name follow := by
  intro marked
  rw [unmarked] at marked
  cases marked

section Shapes

variable {body : Phrase α} {follow : List Token → Prop}

theorem Kept.behind {terminal : Terminal Unit}
    (unmarked : variation.marks.covers name (.token terminal) = false)
    (kept : body.Kept variation here name follow) :
    (behind terminal body).Kept variation here name follow :=
  ⟨Refills.of_unmarked unmarked, kept, Ahead.token⟩

theorem Kept.before {terminal : Terminal Unit}
    (kept : body.Kept variation here name fun _ => True)
    (unmarked : variation.marks.covers name (.token terminal) = false) :
    (before body terminal).Kept variation here name follow := by
  refine ⟨kept.mono fun _ _ => trivial, Refills.of_unmarked unmarked, ⟨fun _ _ part _ => ?_⟩⟩
  rw [part.of_token.1] at unmarked
  cases unmarked

end Shapes

end Phrase

end CollectionSchema.Peg
