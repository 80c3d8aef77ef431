import CollectionSchema.Grammar.Session
import CollectionSchema.Proofs.Peg.Inversion

/-!
# Phrases that move a cursor

A run counts the tokens that a match takes.  A parser with a cursor does the same in
another way: each token that it takes moves the cursor, a failure leaves the cursor
where it happens to be, and whoever tries another phrase instead puts it back.  Such
a parser could fail to come to an end, since a repetition goes on for as long as its
body matches, and it could lose its place.

An execution is what such a parser does with a session, from the first step to the
last: there is one exactly when it comes to an end.  Executions know nothing of runs,
and they allow what no run does, a repetition that stops behind a match that did not
move the cursor.  Still every run is executed from every place at which its tokens
stand (`Run.executes`), and nothing else is (`Executes.run`).
-/

set_option autoImplicit false

namespace CollectionSchema

variable {α β : Type}

/-! ## The cursor of a session -/

namespace ParseSession

/-- The tokens from the cursor on. -/
def remaining (session : ParseSession) : List Token := session.tokens.drop session.position

/-- A session with the cursor moved on. -/
def advance (session : ParseSession) (count : Nat) : ParseSession :=
  { session with position := session.position + count }

/-- A session with notes made at the cursor. -/
def note (session : ParseSession) (misses : List Miss) : ParseSession :=
  { session with
    furthest := Furthest.recordAll session.furthest (misses.map (Miss.shift session.position)) }

/-- A session with the cursor where it is in another one. -/
def backTo (start session : ParseSession) : ParseSession :=
  { session with position := start.position }

/-- What an attempt makes of the session in which a phrase turned out in some way: after a failure
the cursor goes back to the start. -/
def attempted (start : ParseSession) (result : Option α) (stopped : ParseSession) : ParseSession :=
  match result with
  | some _ => stopped
  | none => start.backTo stopped

end ParseSession

namespace Peg

/-! ## Executions -/

/-- Executing a phrase in a session ends with a result and leaves another session behind. -/
inductive Executes : {α : Type} → RuleName → Phrase α → ParseSession → Option α → ParseSession →
    Prop
  | token {α : Type} {name : RuleName} {terminal : Terminal α} {session : ParseSession} {value : α}
      (read : session.remaining.head?.bind terminal.read = some value) :
      Executes name (.token terminal) session (some value) (session.advance 1)
  | tokenMissed {α : Type} {name : RuleName} {terminal : Terminal α} {session : ParseSession}
      (unread : session.remaining.head?.bind terminal.read = none) :
      Executes name (.token terminal) session none
        (session.note (terminal.misses name session.remaining.head?))
  | reference {α : Type} {name : RuleName} {symbol : Nonterminal α} {session after : ParseSession}
      {result : Option α} (inner : Executes symbol.name (definition symbol) session result after) :
      Executes name (.reference symbol) session result after
  /-- After a failure of a part the cursor stays where it is. -/
  | sequenceMissed {α β : Type} {name : RuleName} {first : Phrase α} {second : Phrase β}
      {session after : ParseSession} (left : Executes name first session none after) :
      Executes name (.sequence first second) session none after
  | sequence {α β : Type} {name : RuleName} {first : Phrase α} {second : Phrase β}
      {session middle after : ParseSession} {value : α} {result : Option β}
      (left : Executes name first session (some value) middle)
      (right : Executes name second middle result after) :
      Executes name (.sequence first second) session (result.map fun other => (value, other)) after
  | choiceFirst {α : Type} {name : RuleName} {first second : Phrase α}
      {session after : ParseSession} {value : α}
      (left : Executes name first session (some value) after) :
      Executes name (.choice first second) session (some value) after
  | choiceSecond {α : Type} {name : RuleName} {first second : Phrase α}
      {session middle after : ParseSession} {result : Option α}
      (left : Executes name first session none middle)
      (right : Executes name second (session.backTo middle) result after) :
      Executes name (.choice first second) session result (session.attempted result after)
  | optional {α : Type} {name : RuleName} {body : Phrase α} {session after : ParseSession}
      {result : Option α} (inner : Executes name body session result after) :
      Executes name (.optional body) session (some result) (session.attempted result after)
  | manyEnd {α : Type} {name : RuleName} {body : Phrase α} {session after : ParseSession}
      (inner : Executes name body session none after) :
      Executes name (.many body) session (some []) (session.backTo after)
  /-- A match that did not move the cursor is the last one. -/
  | manyStopped {α : Type} {name : RuleName} {body : Phrase α} {session after : ParseSession}
      {item : α} (inner : Executes name body session (some item) after)
      (stuck : after.position = session.position) :
      Executes name (.many body) session (some [item]) after
  | many {α : Type} {name : RuleName} {body : Phrase α} {session middle after : ParseSession}
      {item : α} {items : List α} (inner : Executes name body session (some item) middle)
      (moved : middle.position ≠ session.position)
      (others : Executes name (.many body) middle (some items) after) :
      Executes name (.many body) session (some (item :: items)) after
  | flagged {α : Type} {name : RuleName} {character : Char} {body : Phrase α}
      {session after : ParseSession} {first : Token} {result : Option α}
      (here : session.remaining.head? = some first) (set : first.isSymbol character = true)
      (inner : Executes name body (session.advance 1) result after) :
      Executes name (.flagged character body) session (result.map fun value => (true, value)) after
  | flaggedUnset {α : Type} {name : RuleName} {character : Char} {body : Phrase α}
      {session after : ParseSession} {result : Option α}
      (unset : ∀ first ∈ session.remaining.head?, first.isSymbol character = false)
      (inner : Executes name body session result after) :
      Executes name (.flagged character body) session (result.map fun value => (false, value)) after
  | operationMissed {α : Type} {name : RuleName} {operand : Phrase α} {session : ParseSession}
      (unread : Recognizer.operator.look session.remaining = none) :
      Executes name (.operation operand) session none
        (session.note [⟨0, false, name, .operator⟩])
  | operation {α : Type} {name : RuleName} {operand : Phrase α} {session after : ParseSession}
      {operator : Operator} {taken : Nat} {result : Option α}
      (read : Recognizer.operator.look session.remaining = some (operator, taken))
      (inner : Executes name operand (session.advance taken) result after) :
      Executes name (.operation operand) session (result.map fun value => (operator, value)) after
  | map {α β : Type} {name : RuleName} {build : α → β} {body : Phrase α}
      {session after : ParseSession} {result : Option α}
      (inner : Executes name body session result after) :
      Executes name (.map build body) session (result.map build) after
  | located {α β : Type} {name : RuleName} {build : Position → α → β} {body : Phrase α}
      {session after : ParseSession} {result : Option α}
      (inner : Executes name body session result after) :
      Executes name (.located build body) session (result.map
        (build ((session.remaining.head?.map Token.position).getD Position.start))) after

/-- Attempting a phrase is executing it and going back to the start after a failure. -/
def Attempts (name : RuleName) (phrase : Phrase α) (session : ParseSession) (result : Option α)
    (after : ParseSession) : Prop :=
  ∃ stopped, Executes name phrase session result stopped ∧ after = session.attempted result stopped

/-! ## Executions and runs -/

/-- A session that is left behind and a result, as a run says that they are.  Only a failure leaves
open where the cursor is. -/
structure Reflects (session : ParseSession) (misses : List Miss) (found : Option (α × Nat))
    (result : Option α) (after : ParseSession) : Prop where
  result : result = found.map Prod.fst
  tokens : after.tokens = session.tokens
  furthest : after.furthest =
    Furthest.recordAll session.furthest (misses.map (Miss.shift session.position))
  position : ∀ {value taken}, found = some (value, taken) →
    after.position = session.position + taken

namespace Reflects

variable {session middle after : ParseSession} {misses later : List Miss}

theorem eq_none {found : Option (α × Nat)} (missed : Reflects session misses found none after) :
    found = none :=
  Option.map_eq_none_iff.mp missed.result.symm

theorem exists_taken {found : Option (α × Nat)} {value : α}
    (matched : Reflects session misses found (some value) after) :
    ∃ taken, found = some (value, taken) := by
  obtain ⟨⟨_, taken⟩, same, rfl⟩ := Option.map_eq_some_iff.mp matched.result.symm
  exact ⟨taken, same⟩

theorem advance (session : ParseSession) (value : α) (count : Nat) :
    Reflects session [] (some (value, count)) (some value) (session.advance count) := by
  refine ⟨rfl, rfl, rfl, fun same => ?_⟩
  cases same
  rfl

theorem note (session : ParseSession) (misses : List Miss) :
    Reflects (α := α) session misses none none (session.note misses) :=
  ⟨rfl, rfl, rfl, nofun⟩

/-- Behind a match the tokens that it took are no longer there. -/
theorem remaining {value : α} {taken : Nat} {result : Option α}
    (left : Reflects session misses (some (value, taken)) result middle) :
    middle.remaining = session.remaining.drop taken := by
  rw [ParseSession.remaining, ParseSession.remaining, left.tokens, left.position rfl,
    List.drop_drop]

/-- Going on behind a match. -/
theorem behind {value : α} {taken : Nat} {found : Option (β × Nat)} {result : Option β} {γ : Type}
    (build : β → γ) (left : Reflects session misses (some (value, taken)) (some value) middle)
    (right : Reflects middle later found result after) :
    Reflects session (misses ++ later.map (Miss.shift taken)) (further build taken found)
      (result.map build) after := by
  have place := left.position rfl
  refine ⟨?_, right.tokens.trans left.tokens, ?_, fun same => ?_⟩
  · rw [right.result]
    rcases found with _ | ⟨_, _⟩ <;> rfl
  · have shifted : Miss.shift session.position ∘ Miss.shift taken = Miss.shift middle.position :=
      funext fun miss => by rw [Function.comp_apply, Miss.shift_shift, place]
    rw [right.furthest, left.furthest, List.map_append, List.map_map, shifted]
    exact List.foldl_append.symm
  · obtain ⟨_, more, rfl, _, rfl⟩ := further_eq_some_iff.mp same
    rw [right.position rfl, place, Nat.add_assoc]

/-- Building something else from the value that was found. -/
theorem map {found : Option (α × Nat)} {result : Option α} (build : α → β)
    (inner : Reflects session misses found result after) :
    Reflects session misses (further build 0 found) (result.map build) after := by
  have start : Reflects session [] (some ((), 0)) (some ()) session := advance session () 0
  simpa using start.behind build inner

/-- A failure of a part is one of the whole. -/
theorem failed (missed : Reflects (α := α) session misses none none after) :
    Reflects (α := β) session misses none none after :=
  ⟨rfl, missed.tokens, missed.furthest, nofun⟩

/-- It does not matter to a failure where the cursor is. -/
theorem attempted {found : Option (α × Nat)} {result : Option α}
    (inner : Reflects session misses found result after) :
    Reflects session misses found result (session.attempted result after) := by
  rcases found with _ | ⟨value, taken⟩ <;> obtain rfl := inner.result
  · exact ⟨rfl, inner.tokens, inner.furthest, nofun⟩
  · exact inner

/-- The tokens at the cursor are there again once it is back. -/
theorem remaining_backTo {found : Option (α × Nat)} {result : Option α}
    (inner : Reflects session misses found result after) :
    (session.backTo after).remaining = session.remaining :=
  congrArg (List.drop session.position) inner.tokens

/-- Going on at the start behind a failure. -/
theorem instead {found : Option (α × Nat)} {result : Option α}
    (left : Reflects (α := α) session misses none none middle)
    (right : Reflects (session.backTo middle) later found result after) :
    Reflects session (misses ++ later) found result after := by
  refine ⟨right.result, right.tokens.trans left.tokens, ?_, right.position⟩
  rw [right.furthest, List.map_append]
  show Furthest.recordAll middle.furthest _ = _
  rw [left.furthest]
  exact List.foldl_append.symm

/-- What an option makes of a match. -/
theorem present {value : α} {taken : Nat}
    (matched : Reflects session misses (some (value, taken)) (some value) after) :
    Reflects session misses (some (some value, taken)) (some (some value)) after := by
  refine ⟨rfl, matched.tokens, matched.furthest, fun same => ?_⟩
  cases same
  exact matched.position rfl

/-- What an option and a repetition make of a failure: a match that takes nothing. -/
theorem absent (value : β) (missed : Reflects (α := α) session misses none none after) :
    Reflects session misses (some (value, 0)) (some value) (session.backTo after) := by
  refine ⟨rfl, missed.tokens, missed.furthest, fun same => ?_⟩
  cases same
  rfl

end Reflects

/-- A run is executed wherever its tokens stand. -/
theorem Run.executes {name : RuleName} {phrase : Phrase α} {tokens : List Token}
    {misses : List Miss} {found : Option (α × Nat)} (run : Run name phrase tokens misses found) :
    ∀ session : ParseSession, session.remaining = tokens → ∃ result after,
      Executes name phrase session result after ∧ Reflects session misses found result after := by
  induction run with
  | token read =>
      intro session here
      exact ⟨_, _, .token (by rw [here]; exact read), .advance session _ 1⟩
  | tokenMissed unread =>
      rintro session rfl
      exact ⟨_, _, .tokenMissed unread, .note session _⟩
  | reference _ ih =>
      intro session here
      obtain ⟨result, after, inner, reflects⟩ := ih session here
      exact ⟨_, _, .reference inner, reflects⟩
  | sequenceMissed _ ih =>
      intro session here
      obtain ⟨_, after, left, reflects⟩ := ih session here
      obtain rfl := reflects.result
      exact ⟨_, _, .sequenceMissed left, reflects.failed⟩
  | sequence _ _ left right =>
      rintro session rfl
      obtain ⟨_, middle, left, before⟩ := left session rfl
      obtain rfl := before.result
      obtain ⟨result, after, right, behind⟩ := right middle before.remaining
      exact ⟨_, _, .sequence left right, before.behind _ behind⟩
  | choiceFirst _ ih =>
      intro session here
      obtain ⟨_, after, left, reflects⟩ := ih session here
      obtain rfl := reflects.result
      exact ⟨_, _, .choiceFirst left, reflects⟩
  | choiceSecond _ _ left right =>
      rintro session rfl
      obtain ⟨_, middle, left, before⟩ := left session rfl
      obtain rfl := before.result
      obtain ⟨result, after, right, behind⟩ := right (session.backTo middle) before.remaining_backTo
      exact ⟨_, _, .choiceSecond left right, (before.instead behind).attempted⟩
  | optional _ ih =>
      intro session here
      obtain ⟨_, after, inner, reflects⟩ := ih session here
      obtain rfl := reflects.result
      exact ⟨_, _, .optional inner, reflects.present⟩
  | optionalMissed _ ih =>
      intro session here
      obtain ⟨_, after, inner, reflects⟩ := ih session here
      obtain rfl := reflects.result
      exact ⟨_, _, .optional inner, reflects.absent none⟩
  | manyEnd _ ih =>
      intro session here
      obtain ⟨_, after, inner, reflects⟩ := ih session here
      obtain rfl := reflects.result
      exact ⟨_, _, .manyEnd inner, reflects.absent []⟩
  | many consumes run _ inner others =>
      rintro session rfl
      obtain ⟨_, middle, inner, before⟩ := inner session rfl
      obtain rfl := before.result
      obtain ⟨_, after, others, behind⟩ := others middle before.remaining
      obtain rfl := behind.result
      have moved : middle.position ≠ session.position := by
        have := run.progress consumes rfl
        have := before.position rfl
        omega
      exact ⟨_, _, .many inner moved others, before.behind (List.cons _) behind⟩
  | flagged set _ ih =>
      intro session here
      obtain ⟨result, after, inner, reflects⟩ := ih (session.advance 1)
        ((Reflects.advance session () 1).remaining.trans (by rw [here]; rfl))
      exact ⟨_, _, .flagged (by rw [here]; rfl) set inner,
        (Reflects.advance session () 1).behind _ reflects⟩
  | flaggedUnset _ unset _ ih =>
      rintro session rfl
      obtain ⟨result, after, inner, reflects⟩ := ih session rfl
      exact ⟨_, _, .flaggedUnset unset inner, reflects.map _⟩
  | operationMissed unread =>
      rintro session rfl
      exact ⟨_, _, .operationMissed unread, .note session _⟩
  | operation _ read _ ih =>
      rintro session rfl
      obtain ⟨result, after, inner, reflects⟩ := ih (session.advance _)
        (Reflects.advance session () _).remaining
      exact ⟨_, _, .operation read inner, (Reflects.advance session () _).behind _ reflects⟩
  | map _ ih =>
      intro session here
      obtain ⟨result, after, inner, reflects⟩ := ih session here
      exact ⟨_, _, .map inner, reflects.map _⟩
  | located _ _ ih =>
      rintro session rfl
      obtain ⟨result, after, inner, reflects⟩ := ih session rfl
      exact ⟨_, _, .located inner, reflects.map _⟩

/-- What is executed is a run. -/
theorem Executes.run {name : RuleName} {phrase : Phrase α} {session after : ParseSession}
    {result : Option α} (executes : Executes name phrase session result after) :
    phrase.wellFormed = true → ∃ misses found,
      Run name phrase session.remaining misses found ∧
        Reflects session misses found result after := by
  induction executes with
  | @token _ _ _ session _ read =>
      intro _
      rcases here : session.remaining with _ | ⟨first, rest⟩
      · rw [here] at read
        cases read
      · rw [here] at read
        exact ⟨_, _, .token read, .advance session _ 1⟩
  | tokenMissed unread => exact fun _ => ⟨_, _, .tokenMissed unread, .note _ _⟩
  | reference _ ih =>
      intro _
      obtain ⟨misses, found, inner, reflects⟩ := ih (definition_wellFormed _)
      exact ⟨_, _, .reference inner, reflects⟩
  | sequenceMissed _ ih =>
      intro wellFormed
      simp only [Phrase.wellFormed, Bool.and_eq_true] at wellFormed
      obtain ⟨misses, found, left, reflects⟩ := ih wellFormed.1
      obtain rfl := Option.map_eq_none_iff.mp reflects.result.symm
      exact ⟨_, _, .sequenceMissed left, reflects.failed⟩
  | sequence _ _ left right =>
      intro wellFormed
      simp only [Phrase.wellFormed, Bool.and_eq_true] at wellFormed
      obtain ⟨_, _, left, before⟩ := left wellFormed.1
      obtain ⟨taken, rfl⟩ := before.exists_taken
      obtain ⟨_, _, right, behind⟩ := right wellFormed.2
      rw [before.remaining] at right
      exact ⟨_, _, .sequence left right, before.behind _ behind⟩
  | choiceFirst _ ih =>
      intro wellFormed
      simp only [Phrase.wellFormed, Bool.and_eq_true] at wellFormed
      obtain ⟨_, _, left, reflects⟩ := ih wellFormed.1
      obtain ⟨taken, rfl⟩ := reflects.exists_taken
      exact ⟨_, _, .choiceFirst left, reflects⟩
  | choiceSecond _ _ left right =>
      intro wellFormed
      simp only [Phrase.wellFormed, Bool.and_eq_true] at wellFormed
      obtain ⟨_, _, left, before⟩ := left wellFormed.1
      obtain rfl := before.eq_none
      obtain ⟨_, _, right, behind⟩ := right wellFormed.2
      rw [before.remaining_backTo] at right
      exact ⟨_, _, .choiceSecond left right, (before.instead behind).attempted⟩
  | @optional _ _ _ _ _ result _ ih =>
      intro wellFormed
      obtain ⟨_, _, inner, reflects⟩ := ih wellFormed
      rcases result with _ | value
      · obtain rfl := reflects.eq_none
        exact ⟨_, _, .optionalMissed inner, reflects.absent none⟩
      · obtain ⟨taken, rfl⟩ := reflects.exists_taken
        exact ⟨_, _, .optional inner, reflects.present⟩
  | manyEnd _ ih =>
      intro wellFormed
      simp only [Phrase.wellFormed, Bool.and_eq_true] at wellFormed
      obtain ⟨_, _, inner, reflects⟩ := ih wellFormed.2
      obtain rfl := reflects.eq_none
      exact ⟨_, _, .manyEnd inner, reflects.absent []⟩
  | manyStopped _ stuck ih =>
      -- What is repeated takes a token, so the cursor has moved.
      intro wellFormed
      simp only [Phrase.wellFormed, Bool.and_eq_true] at wellFormed
      obtain ⟨_, _, inner, reflects⟩ := ih wellFormed.2
      obtain ⟨taken, rfl⟩ := reflects.exists_taken
      have progress := inner.progress wellFormed.1 rfl
      have moved := reflects.position rfl
      omega
  | many _ _ _ inner others =>
      intro wellFormed
      have both := wellFormed
      simp only [Phrase.wellFormed, Bool.and_eq_true] at both
      obtain ⟨_, _, inner, before⟩ := inner both.2
      obtain ⟨taken, rfl⟩ := before.exists_taken
      obtain ⟨_, _, others, behind⟩ := others wellFormed
      obtain ⟨more, rfl⟩ := behind.exists_taken
      rw [before.remaining] at others
      exact ⟨_, _, .many both.1 inner others, before.behind (List.cons _) behind⟩
  | @flagged _ _ _ _ session _ _ _ here set _ ih =>
      intro wellFormed
      simp only [Phrase.wellFormed, Bool.and_eq_true] at wellFormed
      have before := Reflects.advance session () 1
      obtain ⟨_, _, inner, reflects⟩ := ih wellFormed.2
      obtain ⟨rest, same⟩ := List.head?_eq_some_iff.mp here
      rw [before.remaining, same, List.drop_one, List.tail_cons] at inner
      rw [same]
      exact ⟨_, _, .flagged set inner, before.behind _ reflects⟩
  | flaggedUnset unset _ ih =>
      intro wellFormed
      simp only [Phrase.wellFormed, Bool.and_eq_true] at wellFormed
      obtain ⟨_, _, inner, reflects⟩ := ih wellFormed.2
      exact ⟨_, _, .flaggedUnset wellFormed.1 unset inner, reflects.map _⟩
  | operationMissed unread => exact fun _ => ⟨_, _, .operationMissed unread, .note _ _⟩
  | @operation _ _ _ session _ _ taken _ read _ ih =>
      intro wellFormed
      simp only [Phrase.wellFormed, Bool.and_eq_true] at wellFormed
      have before := Reflects.advance session () taken
      obtain ⟨_, _, inner, reflects⟩ := ih wellFormed.2
      rw [before.remaining] at inner
      exact ⟨_, _, .operation wellFormed.1 read inner, before.behind _ reflects⟩
  | map _ ih =>
      intro wellFormed
      obtain ⟨_, _, inner, reflects⟩ := ih wellFormed
      exact ⟨_, _, .map inner, reflects.map _⟩
  | located _ ih =>
      intro wellFormed
      simp only [Phrase.wellFormed, Bool.and_eq_true] at wellFormed
      obtain ⟨_, _, inner, reflects⟩ := ih wellFormed.2
      exact ⟨_, _, .located wellFormed.1 inner, reflects.map _⟩

/-! ## Attempts -/

section Attempts

variable {name : RuleName} {phrase : Phrase α} {session after : ParseSession} {result : Option α}

theorem Run.attempts {misses : List Miss} {found : Option (α × Nat)}
    (run : Run name phrase session.remaining misses found) :
    ∃ after, Attempts name phrase session (found.map Prod.fst) after ∧
      Reflects session misses found (found.map Prod.fst) after := by
  obtain ⟨result, stopped, executes, reflects⟩ := run.executes session rfl
  obtain rfl := reflects.result
  exact ⟨_, ⟨stopped, executes, rfl⟩, reflects.attempted⟩

namespace Attempts

theorem run (attempts : Attempts name phrase session result after)
    (wellFormed : phrase.wellFormed = true) :
    ∃ misses found, Run name phrase session.remaining misses found ∧
      Reflects session misses found result after := by
  obtain ⟨stopped, executes, rfl⟩ := attempts
  obtain ⟨misses, found, run, reflects⟩ := executes.run wellFormed
  exact ⟨misses, found, run, reflects.attempted⟩

theorem restored (attempts : Attempts name phrase session none after) :
    after.position = session.position := by
  obtain ⟨stopped, _, rfl⟩ := attempts
  rfl

theorem progress (wellFormed : phrase.wellFormed = true) (consumes : phrase.consumes = true)
    {value : α} (attempts : Attempts name phrase session (some value) after) :
    session.position < after.position := by
  obtain ⟨misses, found, run, reflects⟩ := attempts.run wellFormed
  obtain ⟨taken, rfl⟩ := reflects.exists_taken
  have more := run.progress consumes rfl
  rw [reflects.position rfl]
  exact Nat.lt_add_of_pos_right more

/-- An attempt has only one end. -/
theorem unique (wellFormed : phrase.wellFormed = true)
    (attempts : Attempts name phrase session result after) {other : Option α}
    {state : ParseSession} (again : Attempts name phrase session other state) :
    other = result ∧ state = after := by
  obtain ⟨misses, found, run, reflects⟩ := attempts.run wellFormed
  obtain ⟨_, _, rerun, also⟩ := again.run wellFormed
  obtain ⟨rfl, rfl⟩ := run.unique rerun
  obtain rfl := reflects.result
  obtain rfl := also.result
  have position : state.position = after.position := by
    rcases found with _ | ⟨_, taken⟩
    · rw [again.restored, attempts.restored]
    · rw [also.position rfl, reflects.position rfl]
  refine ⟨rfl, ?_⟩
  rw [ParseSession.mk.injEq]
  exact ⟨also.tokens.trans reflects.tokens.symm, position,
    also.furthest.trans reflects.furthest.symm⟩

end Attempts

/-- Each attempt comes to an end, which is the reply of the phrase as a rule. -/
theorem Phrase.attempts (wellFormed : phrase.wellFormed = true) (name : RuleName)
    (session : ParseSession) :
    ∃ result after, Attempts name phrase session result after ∧
      Reflects session (phrase.rule name session.remaining).misses
        (phrase.rule name session.remaining).found result after := by
  obtain ⟨after, attempts, reflects⟩ := (Phrase.run name wellFormed session.remaining).attempts
  exact ⟨_, after, attempts, reflects⟩

end Attempts

end Peg

end CollectionSchema
