import CollectionSchema.Proofs.Peg.Follow
import CollectionSchema.Proofs.Peg.Locality

/-!
# Completing an unfinished text

A run is stuck at a place when its furthest note points there and it takes nothing
from there on.  The tokens in front of that place can have other tokens behind them,
and what becomes of the phrase then is put together here from what becomes of its
parts.  A part may turn out as before, whatever follows some of the other tokens
(`Stays`), or these tokens complete it to a match (`Completes`).  Whatever is still
open behind a completed part is closed with shortest matches.
-/

set_option autoImplicit false

namespace CollectionSchema.Peg

variable {α β : Type}

/-! ## Stuck runs -/

/-- Nothing is noted behind a place or taken from there on. -/
structure UpTo (place : Nat) (misses : List Miss) (found : Option (α × Nat)) : Prop where
  noted : ∀ miss ∈ misses, miss.position ≤ place
  taken : ∀ value count, found = some (value, count) → count ≤ place

namespace UpTo

variable {place : Nat} {misses later : List Miss} {found : Option (α × Nat)}

theorem missed {other : Option (β × Nat)} (upTo : UpTo place misses other) :
    UpTo (α := α) place misses none :=
  ⟨upTo.noted, nofun⟩

theorem of_found {other : Option (β × Nat)} (upTo : UpTo place misses found)
    (counted : ∀ value count, other = some (value, count) →
      ∃ value, found = some (value, count)) : UpTo place misses other := by
  refine ⟨upTo.noted, fun value count matched => ?_⟩
  obtain ⟨value, matched⟩ := counted value count matched
  exact upTo.taken value count matched

theorem first {other : Option (β × Nat)} (upTo : UpTo place (misses ++ later) found)
    (taken : ∀ value count, other = some (value, count) → count ≤ place) :
    UpTo place misses other :=
  ⟨fun miss member => upTo.noted miss (List.mem_append_left later member), taken⟩

theorem second (upTo : UpTo place (misses ++ later) found) : UpTo place later found :=
  ⟨fun miss member => upTo.noted miss (List.mem_append_right misses member), upTo.taken⟩

theorem unshift {build : α → β} (upTo : UpTo place misses (further build 0 found)) :
    UpTo place misses found :=
  upTo.of_found fun value count matched => ⟨build value, by simp [matched]⟩

/-- A run behind some tokens that ends at a place has these tokens in front of it. -/
theorem behind {name : RuleName} {phrase : Phrase α} {tokens : List Token}
    (run : Run name phrase tokens misses found) (build : α → β) {taken : Nat}
    (upTo : UpTo place (misses.map (Miss.shift taken)) (further build taken found)) :
    taken ≤ place ∧ UpTo (place - taken) misses found := by
  have le := run.behind_le build upTo.noted upTo.taken
  refine ⟨le, fun miss member => ?_, fun value count matched => ?_⟩
  · have := upTo.noted _ (List.mem_map_of_mem member)
    rw [Miss.shift_position] at this
    omega
  · subst matched
    have := upTo.taken _ _ rfl
    omega

end UpTo

/-- Some note points to a place, and nothing is noted behind it or taken from there on. -/
structure Stuck (place : Nat) (misses : List Miss) (found : Option (α × Nat)) : Prop where
  noted : ∀ miss ∈ misses, miss.position ≤ place
  taken : ∀ value count, found = some (value, count) → count ≤ place
  there : ∃ miss ∈ misses, miss.position = place

namespace Stuck

variable {place : Nat} {misses : List Miss} {found : Option (α × Nat)}

theorem upTo (stuck : Stuck place misses found) : UpTo place misses found :=
  ⟨stuck.noted, stuck.taken⟩

/-- A run that is stuck stands at a place in front of which the input does not end. -/
theorem passes {name : RuleName} {phrase : Phrase α} {tokens : List Token}
    (stuck : Stuck place misses found) (run : Run name phrase tokens misses found) :
    Passes tokens place := by
  obtain ⟨miss, member, rfl⟩ := stuck.there
  exact run.passes_misses miss member

end Stuck

/-! ## Other tokens behind a place -/

/-- The tokens in front of a place with other tokens behind them. -/
def redirect (tokens : List Token) (place : Nat) (others : List Token) : List Token :=
  tokens.take place ++ others

section Redirect

variable {tokens others : List Token} {place : Nat}

theorem redirect_zero (tokens others : List Token) : redirect tokens 0 others = others := rfl

theorem take_redirect (others : List Token) (passes : Passes tokens place) :
    (redirect tokens place others).take place = tokens.take place := by
  have length : (tokens.take place).length = place := List.length_take_of_le passes.1
  rw [redirect, List.take_append_of_le_length (Nat.le_of_eq length.symm), List.take_take,
    Nat.min_self]

theorem drop_redirect {count : Nat} (passes : Passes tokens place) (le : count ≤ place) :
    (redirect tokens place others).drop count =
      redirect (tokens.drop count) (place - count) others := by
  have length : (tokens.take place).length = place := List.length_take_of_le passes.1
  rw [redirect, redirect, List.drop_append_of_le_length (by omega), List.drop_take]

theorem redirect_cons (first : Token) (rest others : List Token) {place : Nat}
    (positive : 0 < place) :
    redirect (first :: rest) place others = first :: redirect rest (place - 1) others := by
  obtain ⟨place, rfl⟩ := Nat.exists_eq_succ_of_ne_zero (Nat.ne_of_gt positive)
  rfl

theorem drop_redirect_behind (passes : Passes tokens place) (words rest : List Token) :
    (redirect tokens place (words ++ rest)).drop (place + words.length) = rest := by
  rw [← List.drop_drop, drop_redirect passes (Nat.le_refl place), Nat.sub_self, redirect_zero,
    List.drop_left]

theorem head_redirect (passes : Passes tokens place) (positive : 0 < place) :
    (redirect tokens place others).head? = tokens.head? :=
  head_of_take positive (take_redirect others passes)

theorem Passes.drop {taken : Nat} (passes : Passes tokens place) (le : taken ≤ place) :
    Passes (tokens.drop taken) (place - taken) := by
  refine ⟨?_, fun token member => passes.2 token ?_⟩
  · have := passes.1
    rw [List.length_drop]
    omega
  · rw [← List.drop_take] at member
    exact List.mem_of_mem_drop member

end Redirect

/-! ## Completions -/

/-- A phrase turns out as it did when some words stand at a place, whatever follows them. -/
def Stays (name : RuleName) (phrase : Phrase α) (tokens : List Token) (place : Nat)
    (words : List Token) (found : Option (α × Nat)) : Prop :=
  ∀ rest : List Token, ∃ misses, Run name phrase (redirect tokens place (words ++ rest)) misses
    found

theorem Stays.append {name : RuleName} {phrase : Phrase α} {tokens words : List Token}
    {place : Nat} {found : Option (α × Nat)} (stays : Stays name phrase tokens place words found)
    (more : List Token) : Stays name phrase tokens place (words ++ more) found := by
  intro rest
  rw [List.append_assoc]
  exact stays (more ++ rest)

/-- Some tokens that complete those in front of a place to a match of a phrase, whatever token
follows that cannot make a match longer. -/
def Completes (name : RuleName) (phrase : Phrase α) (tokens : List Token) (place : Nat)
    (words : List Token) : Prop :=
  ∀ rest : List Token, phrase.Closes rest.head? → ∃ misses value,
    Run name phrase (redirect tokens place (words ++ rest)) misses
      (some (value, place + words.length))

theorem Phrase.lies_of_all (phrase : Phrase α) : phrase.lies 5 = true := by
  induction phrase with
  | reference symbol => cases symbol <;> rfl
  | sequence first second ihFirst ihSecond => simp [lies, ihFirst, ihSecond]
  | choice _ _ ih _ | flagged _ _ ih | operation _ ih | map _ _ ih | located _ _ ih => exact ih
  | _ => rfl

theorem Phrase.writes (name : RuleName) {phrase : Phrase α} (wellFormed : phrase.wellFormed = true)
    (distinct : phrase.Distinct) : ∃ words, phrase.Writes name words :=
  Phrase.exists_shortest (fun symbol _ => symbol.exists_shortest) wellFormed distinct
    phrase.lies_of_all

/-- An operator is seen again where its tokens stand and no mark follows that could belong to it. -/
theorem look_operator_again {tokens others : List Token} {operator : Operator} {taken : Nat}
    (read : Recognizer.operator.look tokens = some (operator, taken))
    (same : others.take taken = tokens.take taken)
    (alone : ∀ next ∈ (others.drop taken).head?, ¬ Continues next) :
    Recognizer.operator.look others = some (operator, taken) := by
  rcases look_operator_cases read with
    ⟨first, rest, rfl, rfl, symbol, single, _⟩ |
    ⟨first, second, rest, rfl, rfl, symbol, also, single, double⟩
  · rcases others with _ | ⟨other, others⟩
    · cases same
    · obtain rfl : other = first := by simpa using same
      have pair : others.head?.bind (Recognizer.pair? other) = none := by
        rcases head : others.head? with _ | next
        · rfl
        · exact Option.not_isSome_iff_eq_none.mp fun joined =>
            alone next (by rw [List.drop_one, List.tail_cons, head]; rfl) ⟨other, joined⟩
      simp [Recognizer.operator, symbol, single, pair]
  · rcases others with _ | ⟨other, _ | ⟨next, others⟩⟩
    · cases same
    · simp at same
    · obtain ⟨alone, single⟩ := Option.isSome_iff_exists.mp single
      simp only [List.take_succ_cons, List.cons.injEq] at same
      obtain ⟨rfl, rfl, _⟩ := same
      simp [Recognizer.operator, Recognizer.pair?, symbol, also, single, double]

namespace Completes

variable {name : RuleName} {tokens words : List Token} {place taken : Nat} {misses : List Miss}
  {first second body : Phrase α}

theorem reference {symbol : Nonterminal α}
    (inner : Completes symbol.name (definition symbol) tokens place words) :
    Completes name (.reference symbol) tokens place words := by
  intro rest last
  obtain ⟨_, _, run⟩ := inner rest (definition_closes symbol last)
  exact ⟨_, _, .reference run⟩

/-- A completion of the first part of a sequence, with a shortest match of the second one. -/
theorem sequence {second : Phrase β} {more : List Token} (passes : Passes tokens place)
    (left : Completes name first tokens place words) (right : second.Writes name more) :
    Completes name (.sequence first second) tokens place (words ++ more) := by
  intro rest last
  obtain ⟨later, result, behind⟩ := right.run rest last.2
  obtain ⟨misses, value, front⟩ := left (more ++ rest)
    (by rw [List.head?_append, right.head]; exact last.1)
  rw [← drop_redirect_behind passes words (more ++ rest)] at behind
  rw [List.append_assoc, List.length_append, ← Nat.add_assoc]
  exact ⟨_, _, .sequence front behind⟩

/-- A completion of what is left behind some tokens, among all of the tokens. -/
theorem exists_run_drop
    (completes : Completes name body (tokens.drop taken) (place - taken) words)
    (le : taken ≤ place) (passes : Passes tokens place) {rest : List Token}
    (last : body.Closes rest.head?) : ∃ misses value count,
      Run name body ((redirect tokens place (words ++ rest)).drop taken) misses
        (some (value, count)) ∧ taken + count = place + words.length := by
  obtain ⟨misses, value, run⟩ := completes rest last
  rw [← drop_redirect passes le] at run
  exact ⟨misses, value, _, run, by omega⟩

/-- A match that stays and a completion behind that match make a completion. -/
theorem behind {value : α}
    (left : Stays name first tokens place words (some (value, taken))) (le : taken ≤ place)
    (passes : Passes tokens place) {second : Phrase β}
    (right : Completes name second (tokens.drop taken) (place - taken) words) :
    Completes name (.sequence first second) tokens place words := by
  intro rest last
  obtain ⟨_, front⟩ := left rest
  obtain ⟨_, _, _, again, whole⟩ := right.exists_run_drop le passes last.2
  rw [← whole]
  exact ⟨_, _, .sequence front again⟩

theorem choiceFirst (left : Completes name first tokens place words) :
    Completes name (.choice first second) tokens place words := by
  intro rest last
  obtain ⟨_, _, run⟩ := left rest last.1
  exact ⟨_, _, .choiceFirst run⟩

/-- An alternative that is given up again leaves the completion to the other one. -/
theorem choiceSecond (left : Stays name first tokens place words none)
    (right : Completes name second tokens place words) :
    Completes name (.choice first second) tokens place words := by
  intro rest last
  obtain ⟨_, front⟩ := left rest
  obtain ⟨_, _, run⟩ := right rest last.2
  exact ⟨_, _, .choiceSecond front run⟩

theorem optional (inner : Completes name body tokens place words) :
    Completes name (.optional body) tokens place words := by
  intro rest last
  obtain ⟨_, _, run⟩ := inner rest last.1
  exact ⟨_, _, .optional run⟩

/-- A completion of one more match of a repetition; the repetition ends behind it. -/
theorem many (wellFormed : (Phrase.many body).wellFormed = true) (passes : Passes tokens place)
    (inner : Completes name body tokens place words) :
    Completes name (.many body) tokens place words := by
  intro rest last
  simp only [Phrase.wellFormed, Bool.and_eq_true] at wellFormed
  obtain ⟨misses, value, front⟩ := inner rest last.1
  obtain ⟨later, behind⟩ := body.run_of_missed name wellFormed.2 last.2
  rw [← drop_redirect_behind passes words rest] at behind
  have whole := Run.many wellFormed.1 front (.manyEnd behind)
  exact ⟨_, _, whole⟩

/-- A match of a repetition stays, and the repetition is completed behind it. -/
theorem manyBehind (consumes : body.consumes = true) {item : α}
    (inner : Stays name body tokens place words (some (item, taken))) (le : taken ≤ place)
    (passes : Passes tokens place)
    (others : Completes name (.many body) (tokens.drop taken) (place - taken) words) :
    Completes name (.many body) tokens place words := by
  intro rest last
  obtain ⟨_, front⟩ := inner rest
  obtain ⟨_, _, _, again, whole⟩ := others.exists_run_drop le passes last
  rw [← whole]
  exact ⟨_, _, .many consumes front again⟩

theorem flagged {character : Char} {head : Token} {rest : List Token}
    (set : head.isSymbol character = true) (positive : 0 < place)
    (inner : Completes name body rest (place - 1) words) :
    Completes name (.flagged character body) (head :: rest) place words := by
  intro others last
  obtain ⟨_, value, again⟩ := inner others last
  rw [redirect_cons head rest _ positive,
    show place + words.length = 1 + (place - 1 + words.length) by omega]
  exact ⟨_, (true, value), .flagged set again⟩

/-- A flag that is not set stays so, since a match of the body does not start with it. -/
theorem flaggedUnset {character : Char} (consumes : body.consumes = true)
    (distinct : (Phrase.flagged character body).Distinct)
    (inner : Completes name body tokens place words) :
    Completes name (.flagged character body) tokens place words := by
  intro rest last
  obtain ⟨misses, value, run⟩ := inner rest last
  refine ⟨misses, (false, value), ?_⟩
  have unset : ∀ first ∈ (redirect tokens place (words ++ rest)).head?,
      first.isSymbol character = false := fun first member =>
    Bool.eq_false_iff.mpr fun mark => run.forecast.not_missed
      (by rw [Option.mem_def.mp member]; exact distinct.2 first mark)
  simpa using Run.flaggedUnset consumes unset run

/-- An operator in front of the place stays, since its operand does not start with a mark that
continues an operator. -/
theorem operation {operator : Operator} (consumes : body.consumes = true)
    (distinct : (Phrase.operation body).Distinct)
    (read : Recognizer.operator.look tokens = some (operator, taken)) (le : taken ≤ place)
    (passes : Passes tokens place)
    (inner : Completes name body (tokens.drop taken) (place - taken) words) :
    Completes name (.operation body) tokens place words := by
  intro rest last
  obtain ⟨_, value, _, again, whole⟩ := inner.exists_run_drop le passes last
  have alone : ∀ next ∈ ((redirect tokens place (words ++ rest)).drop taken).head?,
      ¬ Continues next := fun next member continues => again.forecast.not_missed
    (by rw [Option.mem_def.mp member]; exact distinct.2 next continues)
  have once := look_operator_again read (take_of_take le (take_redirect _ passes)) alone
  rw [← whole]
  exact ⟨_, (operator, value), .operation consumes once again⟩

theorem map {build : α → β} (inner : Completes name body tokens place words) :
    Completes name (.map build body) tokens place words := by
  intro rest last
  obtain ⟨misses, value, run⟩ := inner rest last
  have whole : Run _ (.map build _) _ misses _ := run.map
  exact ⟨misses, build value, by simpa using whole⟩

theorem located {build : Position → α → β} (consumes : body.consumes = true)
    (inner : Completes name body tokens place words) :
    Completes name (.located build body) tokens place words := by
  intro rest last
  obtain ⟨misses, value, run⟩ := inner rest last
  have whole : Run _ (.located build _) _ misses _ := .located consumes run
  exact ⟨misses, _, by simpa using whole⟩

end Completes

end CollectionSchema.Peg
