import CollectionSchema.Proofs.Peg.Locality
import CollectionSchema.Proofs.Peg.Making
import CollectionSchema.Proofs.Peg.Sealed
import CollectionSchema.Proofs.Peg.Surroundings

/-!
# Reading again

Runs without their notes: a phrase reads a value from some tokens, or it fails there.
How a phrase reads follows from how its parts read, so a part of a match can be
exchanged and the rest put together again.
-/

set_option autoImplicit false

namespace CollectionSchema.Peg

variable {α β : Type}

/-- A phrase matches at the front of some tokens, with a value and the number of tokens taken. -/
def Phrase.Reads (name : RuleName) (phrase : Phrase α) (tokens : List Token) (value : α)
    (taken : Nat) : Prop :=
  ∃ misses, Run name phrase tokens misses (some (value, taken))

section Parts

variable {name : RuleName} {tokens rest : List Token} {first : Token} {taken more : Nat}

namespace Phrase.Reads

theorem token {terminal : Terminal α} {value : α} (read : terminal.read first = some value) :
    (Phrase.token terminal).Reads name (first :: rest) value 1 :=
  ⟨_, .token read⟩

theorem reference {symbol : Nonterminal α} {value : α}
    (inner : (definition symbol).Reads symbol.name tokens value taken) :
    (Phrase.reference symbol).Reads name tokens value taken := by
  obtain ⟨_, run⟩ := inner
  exact ⟨_, .reference run⟩

theorem sequence {first : Phrase α} {second : Phrase β} {left : α} {right : β}
    (front : first.Reads name tokens left taken)
    (behind : second.Reads name (tokens.drop taken) right more) :
    (Phrase.sequence first second).Reads name tokens (left, right) (taken + more) := by
  obtain ⟨_, run⟩ := front
  obtain ⟨_, later⟩ := behind
  exact ⟨_, .sequence run later⟩

theorem choiceFirst {first second : Phrase α} {value : α}
    (inner : first.Reads name tokens value taken) :
    (Phrase.choice first second).Reads name tokens value taken := by
  obtain ⟨_, run⟩ := inner
  exact ⟨_, .choiceFirst run⟩

theorem choiceSecond {first second : Phrase α} {value : α} (missed : first.Fails name tokens)
    (inner : second.Reads name tokens value taken) :
    (Phrase.choice first second).Reads name tokens value taken := by
  obtain ⟨_, run⟩ := missed
  obtain ⟨_, later⟩ := inner
  exact ⟨_, .choiceSecond run later⟩

theorem optional {body : Phrase α} {value : α} (inner : body.Reads name tokens value taken) :
    (Phrase.optional body).Reads name tokens (some value) taken := by
  obtain ⟨_, run⟩ := inner
  exact ⟨_, .optional run⟩

theorem optionalMissed {body : Phrase α} (missed : body.Fails name tokens) :
    (Phrase.optional body).Reads name tokens none 0 := by
  obtain ⟨_, run⟩ := missed
  exact ⟨_, .optionalMissed run⟩

theorem manyEnd {body : Phrase α} (missed : body.Fails name tokens) :
    (Phrase.many body).Reads name tokens [] 0 := by
  obtain ⟨_, run⟩ := missed
  exact ⟨_, .manyEnd run⟩

theorem many {body : Phrase α} {item : α} {items : List α} (consumes : body.consumes = true)
    (front : body.Reads name tokens item taken)
    (behind : (Phrase.many body).Reads name (tokens.drop taken) items more) :
    (Phrase.many body).Reads name tokens (item :: items) (taken + more) := by
  obtain ⟨_, run⟩ := front
  obtain ⟨_, later⟩ := behind
  exact ⟨_, .many consumes run later⟩

theorem flagged {character : Char} {body : Phrase α} {value : α}
    (set : first.isSymbol character = true) (inner : body.Reads name rest value taken) :
    (Phrase.flagged character body).Reads name (first :: rest) (true, value) (1 + taken) := by
  obtain ⟨_, run⟩ := inner
  exact ⟨_, .flagged set run⟩

theorem flaggedUnset {character : Char} {body : Phrase α} {value : α}
    (consumes : body.consumes = true)
    (unset : ∀ first ∈ tokens.head?, first.isSymbol character = false)
    (inner : body.Reads name tokens value taken) :
    (Phrase.flagged character body).Reads name tokens (false, value) taken := by
  obtain ⟨_, run⟩ := inner
  have whole := Run.flaggedUnset consumes unset run
  rw [further_some, Nat.zero_add] at whole
  exact ⟨_, whole⟩

theorem operation {operand : Phrase α} {operator : Operator} {value : α}
    (consumes : operand.consumes = true)
    (read : Recognizer.operator.look tokens = some (operator, taken))
    (inner : operand.Reads name (tokens.drop taken) value more) :
    (Phrase.operation operand).Reads name tokens (operator, value) (taken + more) := by
  obtain ⟨_, run⟩ := inner
  exact ⟨_, .operation consumes read run⟩

theorem map {build : α → β} {body : Phrase α} {value : α}
    (inner : body.Reads name tokens value taken) :
    (Phrase.map build body).Reads name tokens (build value) taken := by
  obtain ⟨_, run⟩ := inner
  have whole : Run name (.map build body) _ _ _ := .map run
  rw [further_some, Nat.zero_add] at whole
  exact ⟨_, whole⟩

theorem located {build : Position → α → β} {body : Phrase α} {value : α}
    (consumes : body.consumes = true) (inner : body.Reads name tokens value taken) :
    (Phrase.located build body).Reads name tokens
      (build ((tokens.head?.map Token.position).getD Position.start) value) taken := by
  obtain ⟨_, run⟩ := inner
  have whole : Run name (.located build body) _ _ _ := .located consumes run
  rw [further_some, Nat.zero_add] at whole
  exact ⟨_, whole⟩

theorem behind {terminal : Terminal Unit} {body : Phrase α} {value : α}
    (read : terminal.read first = some ()) (inner : body.Reads name rest value taken) :
    (Phrase.behind terminal body).Reads name (first :: rest) value (1 + taken) :=
  .map (.sequence (.token read) inner)

theorem before {terminal : Terminal Unit} {body : Phrase α} {value : α}
    (inner : body.Reads name tokens value taken)
    (same : tokens.drop taken = first :: rest) (read : terminal.read first = some ()) :
    (Phrase.before body terminal).Reads name tokens value (taken + 1) := by
  have closing : (Phrase.token terminal).Reads name (tokens.drop taken) () 1 := by
    rw [same]
    exact .token read
  exact .map (.sequence inner closing)

/-- A match is found again in every list with the same tokens, as far as its notes point. -/
theorem steady {phrase : Phrase α} {value : α} {misses : List Miss} {depth : Nat}
    {others : List Token} (run : Run name phrase tokens misses (some (value, taken)))
    (bound : ∀ miss ∈ misses, miss.position < depth) (le : taken ≤ depth)
    (same : others.take depth = tokens.take depth) : phrase.Reads name others value taken :=
  ⟨misses, run.steady ⟨bound, by rintro _ _ ⟨⟩; exact le⟩ same⟩

end Phrase.Reads

namespace Phrase.Fails

theorem token {terminal : Terminal α} (unread : tokens.head?.bind terminal.read = none) :
    (Phrase.token terminal).Fails name tokens :=
  ⟨_, .tokenMissed unread⟩

theorem ofReference {symbol : Nonterminal α} (fails : symbol.Fails tokens) :
    (Phrase.reference symbol).Fails name tokens := by
  obtain ⟨_, run⟩ := fails
  exact ⟨_, .reference run⟩

theorem sequenceFirst {first : Phrase α} {second : Phrase β} (missed : first.Fails name tokens) :
    (Phrase.sequence first second).Fails name tokens := by
  obtain ⟨_, run⟩ := missed
  exact ⟨_, .sequenceMissed run⟩

theorem map {build : α → β} {body : Phrase α} (missed : body.Fails name tokens) :
    (Phrase.map build body).Fails name tokens := by
  obtain ⟨_, run⟩ := missed
  exact ⟨_, .map run⟩

theorem located {build : Position → α → β} {body : Phrase α} (consumes : body.consumes = true)
    (missed : body.Fails name tokens) : (Phrase.located build body).Fails name tokens := by
  obtain ⟨_, run⟩ := missed
  exact ⟨_, .located consumes run⟩

theorem behind {terminal : Terminal Unit} {body : Phrase α}
    (unread : tokens.head?.bind terminal.read = none) :
    (Phrase.behind terminal body).Fails name tokens :=
  ⟨_, .make_behind_missed unread⟩

theorem behindFirst {terminal : Terminal Unit} {body : Phrase α}
    (read : terminal.read first = some ()) (missed : body.Fails name rest) :
    (Phrase.behind terminal body).Fails name (first :: rest) := by
  obtain ⟨_, run⟩ := missed
  exact ⟨_, .make_behind read run⟩

end Phrase.Fails

/-! ## Failures of composed phrases -/

section Inversions

open Phrase (behind)

namespace Phrase

theorem Reads.not_fails {phrase : Phrase α} {value : α}
    (reads : phrase.Reads name tokens value taken) : ¬ phrase.Fails name tokens := by
  rintro ⟨_, failed⟩
  obtain ⟨_, run⟩ := reads
  cases (run.unique failed).2

theorem Fails.of_token {terminal : Terminal α} (fails : (Phrase.token terminal).Fails name tokens) :
    ∀ token ∈ tokens.head?, terminal.read token = none := by
  intro token head
  obtain ⟨rest, rfl⟩ := List.head?_eq_some_iff.mp head
  by_contra read
  obtain ⟨_, read⟩ := Option.ne_none_iff_exists'.mp read
  exact (Reads.token read).not_fails fails

theorem Fails.of_located {build : Position → α → β} {body : Phrase α}
    (fails : (Phrase.located build body).Fails name tokens) : body.Fails name tokens := by
  obtain ⟨_, run⟩ := fails
  obtain ⟨inner, whole, missed⟩ := run.tried
  rw [further_eq_none_iff.mp missed.symm] at whole
  exact ⟨_, whole⟩

theorem not_fails_optional {body : Phrase α} : ¬ (Phrase.optional body).Fails name tokens := by
  rintro ⟨_, run⟩
  rcases run.tried with ⟨_, _, _, matched⟩ | ⟨_, matched⟩ <;> cases matched

/-- A sequence fails at its first part, or at the second behind a match of the first. -/
theorem Fails.of_sequence {first : Phrase α} {second : Phrase β}
    (fails : (Phrase.sequence first second).Fails name tokens) :
    first.Fails name tokens ∨
      ∃ value taken, first.Reads name tokens value taken ∧
        second.Fails name (tokens.drop taken) := by
  obtain ⟨_, run⟩ := fails
  rcases run.tried with ⟨_, left⟩ | ⟨value, taken, _, _, found, left, right, _, missed⟩
  · exact .inl ⟨_, left⟩
  · rw [further_eq_none_iff.mp missed.symm] at right
    exact .inr ⟨value, taken, ⟨_, left⟩, _, right⟩

theorem Fails.of_behind {terminal : Terminal Unit} {body : Phrase α} {first : Token}
    {rest : List Token} (fails : (Phrase.behind terminal body).Fails name (first :: rest))
    (read : terminal.read first = some ()) : body.Fails name rest := by
  rcases fails.of_map.of_sequence with missed | ⟨_, _, ⟨_, run⟩, missed⟩
  · rw [missed.of_token first rfl] at read
    cases read
  · obtain ⟨_, rfl, _⟩ := run.of_token
    exact missed

end Phrase

end Inversions

end Parts

/-- A phrase that no run finds fails. -/
theorem Phrase.fails_of_runs {name : RuleName} {phrase : Phrase α} {tokens : List Token}
    (wellFormed : phrase.wellFormed = true)
    (missed : ∀ {misses : List Miss} {found : Option (α × Nat)},
      Run name phrase tokens misses found → found = none) : phrase.Fails name tokens := by
  have run := Phrase.run name wellFormed tokens
  rw [missed run] at run
  exact ⟨_, run⟩

/-- A phrase that is missed by the look of the next token fails. -/
theorem Phrase.Fails.of_forecast {name : RuleName} {phrase : Phrase α} {tokens : List Token}
    (wellFormed : phrase.wellFormed = true)
    (missed : phrase.forecast tokens.head? = .missed) : phrase.Fails name tokens := by
  refine Phrase.fails_of_runs wellFormed fun run => ?_
  have holds := run.forecast
  rwa [missed] at holds

/-- What the rule of a phrase finds is read. -/
theorem Phrase.Reads.of_rule {name : RuleName} {phrase : Phrase α} {tokens : List Token} {value : α}
    {taken : Nat} (wellFormed : phrase.wellFormed = true)
    (found : (phrase.rule name tokens).found = some (value, taken)) :
    phrase.Reads name tokens value taken := by
  have run := Phrase.run name wellFormed tokens
  rw [found] at run
  exact ⟨_, run⟩

theorem Phrase.Fails.of_rule {name : RuleName} {phrase : Phrase α} {tokens : List Token}
    (wellFormed : phrase.wellFormed = true) (missed : (phrase.rule name tokens).found = none) :
    phrase.Fails name tokens := by
  have run := Phrase.run name wellFormed tokens
  rw [missed] at run
  exact ⟨_, run⟩

/-! ## What a match meets in marks -/

section Meets

variable {means : {α : Type} → Nonterminal α → α → List Token → Nat → Prop} {name : RuleName}
  {tokens : List Token} {taken : Nat} {body : Phrase α}

namespace Phrase.Meets

theorem of_between {opening closing : Char} {value : α}
    (meets : (Phrase.between opening closing body).Meets means name value tokens taken) :
    ∃ first rest count, tokens = first :: rest ∧ first.isSymbol opening = true ∧
      body.Meets means name value rest count ∧
      ∃ last ∈ (rest.drop count).head?, last.isSymbol closing = true := by
  obtain ⟨⟨_, _⟩, rfl, _, _, _, ⟨rfl, first, head, isOpening⟩, ⟨_, _⟩, rfl, count, _, _, inner, _,
    last, there, isClosing⟩ := meets
  obtain ⟨rest, rfl⟩ := List.head?_eq_some_iff.mp head
  exact ⟨first, rest, count, rfl, read_mark_iff.mp isOpening, inner, last, there,
    read_mark_iff.mp isClosing⟩

/-- Items with commas between them are none, or a first one with others in a row behind it. -/
theorem of_separated {items : List α}
    (meets : (Phrase.separated body).Meets means name items tokens taken) :
    items = [] ∨ ∃ first others front more, items = first :: others ∧ taken = front + more ∧
      body.Meets means name first tokens front ∧
      InRow ((Phrase.behind (.mark ',') body).Meets means name) others (tokens.drop front)
        more := by
  obtain ⟨_ | _, rfl, inner⟩ := meets
  · exact .inl rfl
  · obtain ⟨⟨first, others⟩, rfl, front, more, split, one, row⟩ := inner
    exact .inr ⟨first, others, front, more, rfl, split, one, row⟩

end Phrase.Meets

end Meets

end CollectionSchema.Peg
