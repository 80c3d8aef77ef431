import CollectionSchema.Proofs.Peg.Execution
import CollectionSchema.Proofs.Session

/-!
# Progress and termination

Rules that call each other through repetitions, and that move a cursor and put it
back, come to an end because none of them matches without taking a token.  This has
to be known of all rules at once: a repetition in one of them ends only since the
rule that it repeats makes progress.

So wherever the cursor stands and whatever the tokens are, attempting a part of the
grammar comes to exactly one end.  After a match of a rule the cursor stands further
on, after a failure it stands where it stood, and the tokens stay as they are.  A
repetition therefore never gives up behind a match that took nothing, and it takes
all matches in a row.
-/

set_option autoImplicit false

namespace CollectionSchema

open Peg

variable {α : Type}

namespace Peg

/-! ## The parts of the grammar -/

/-- The definitions of the symbols, the list of all declarations and everything in them, each with
the name under which it notes what it misses. -/
inductive InGrammar : {α : Type} → RuleName → Phrase α → Prop
  | program : InGrammar .program declarations
  | rule {α : Type} (symbol : Nonterminal α) : InGrammar symbol.name (definition symbol)
  | first {α β : Type} {name : RuleName} {first : Phrase α} {second : Phrase β}
      (whole : InGrammar name (.sequence first second)) : InGrammar name first
  | second {α β : Type} {name : RuleName} {first : Phrase α} {second : Phrase β}
      (whole : InGrammar name (.sequence first second)) : InGrammar name second
  | preferred {α : Type} {name : RuleName} {first second : Phrase α}
      (whole : InGrammar name (.choice first second)) : InGrammar name first
  | alternative {α : Type} {name : RuleName} {first second : Phrase α}
      (whole : InGrammar name (.choice first second)) : InGrammar name second
  | optional {α : Type} {name : RuleName} {body : Phrase α}
      (whole : InGrammar name (.optional body)) : InGrammar name body
  | many {α : Type} {name : RuleName} {body : Phrase α}
      (whole : InGrammar name (.many body)) : InGrammar name body
  | flagged {α : Type} {name : RuleName} {character : Char} {body : Phrase α}
      (whole : InGrammar name (.flagged character body)) : InGrammar name body
  | operation {α : Type} {name : RuleName} {operand : Phrase α}
      (whole : InGrammar name (.operation operand)) : InGrammar name operand
  | map {α β : Type} {name : RuleName} {build : α → β} {body : Phrase α}
      (whole : InGrammar name (.map build body)) : InGrammar name body
  | located {α β : Type} {name : RuleName} {build : Position → α → β} {body : Phrase α}
      (whole : InGrammar name (.located build body)) : InGrammar name body

theorem InGrammar.wellFormed {name : RuleName} {phrase : Phrase α}
    (inGrammar : InGrammar name phrase) : phrase.wellFormed = true := by
  induction inGrammar with
  | program => rfl
  | rule symbol => exact definition_wellFormed symbol
  | first _ ih | preferred _ ih => exact (Bool.and_eq_true_iff.mp ih).1
  | second _ ih | alternative _ ih | many _ ih | flagged _ ih | operation _ ih | located _ ih =>
      exact (Bool.and_eq_true_iff.mp ih).2
  | optional _ ih | map _ ih => exact ih

/-! ## Attempts that settle -/

/-- An attempt has this end and no other one.  The tokens have stayed, and the cursor has moved
unless the phrase has failed or may match without a token. -/
structure Settles (name : RuleName) (phrase : Phrase α) (session : ParseSession)
    (result : Option α) (after : ParseSession) : Prop where
  attempts : Attempts name phrase session result after
  only : ∀ other state, Attempts name phrase session other state → other = result ∧ state = after
  tokens : after.tokens = session.tokens
  restored : result = none → after.position = session.position
  progress : phrase.consumes = true → result ≠ none → session.position < after.position

theorem Attempts.settles {name : RuleName} {phrase : Phrase α} {session after : ParseSession}
    {result : Option α} (wellFormed : phrase.wellFormed = true)
    (attempts : Attempts name phrase session result after) :
    Settles name phrase session result after where
  attempts := attempts
  only _ _ again := attempts.unique wellFormed again
  tokens := by
    obtain ⟨_, _, _, reflects⟩ := attempts.run wellFormed
    exact reflects.tokens
  restored missed := by
    subst missed
    exact attempts.restored
  progress consumes matched := by
    obtain ⟨value, rfl⟩ := Option.ne_none_iff_exists'.mp matched
    exact attempts.progress wellFormed consumes

/-- Where an optional phrase is not there, the attempt at its body has failed. -/
theorem Attempts.of_optional {name : RuleName} {body : Phrase α} {session after : ParseSession}
    (wellFormed : (Phrase.optional body).wellFormed = true)
    (attempts : Attempts name (.optional body) session (some none) after) :
    Attempts name body session none after := by
  obtain ⟨misses, found, run, reflects⟩ := attempts.run wellFormed
  obtain ⟨taken, rfl⟩ := reflects.exists_taken
  rcases run.tried with ⟨_, _, _, matched⟩ | ⟨inner, matched⟩
  · cases matched
  · cases matched
    obtain ⟨state, missed, _⟩ := inner.attempts
    have again : Attempts name (.optional body) session (some none) state := by
      obtain ⟨stopped, executes, rfl⟩ := missed
      exact ⟨_, .optional executes, rfl⟩
    obtain ⟨_, rfl⟩ := again.unique wellFormed attempts
    exact missed

/-! ## Matches in a row -/

/-- Matches of a phrase, each of them where the last one has moved the cursor to, up to where the
phrase fails. -/
inductive Row (name : RuleName) (body : Phrase α) : ParseSession → List α → ParseSession → Prop
  | done {session after : ParseSession} (missed : Attempts name body session none after) :
      Row name body session [] after
  | next {session middle after : ParseSession} {item : α} {items : List α}
      (matched : Attempts name body session (some item) middle)
      (progress : session.position < middle.position) (others : Row name body middle items after) :
      Row name body session (item :: items) after

theorem Row.executes {name : RuleName} {body : Phrase α} {session after : ParseSession}
    {items : List α} (row : Row name body session items after) :
    Executes name (.many body) session (some items) after := by
  induction row with
  | done missed =>
      obtain ⟨stopped, executes, rfl⟩ := missed
      exact .manyEnd executes
  | next matched progress _ ih =>
      obtain ⟨stopped, executes, rfl⟩ := matched
      exact .many executes (Nat.ne_of_gt progress) ih

/-- Matches in a row come to an end, since each of them takes a token. -/
theorem exists_row {name : RuleName} {body : Phrase α} (consumes : body.consumes = true)
    (wellFormed : body.wellFormed = true) (session : ParseSession) :
    ∃ items after, Row name body session items after := by
  induction count : session.remaining.length using Nat.strongRecOn generalizing session with
  | ind size shorter =>
      have run := Phrase.run name wellFormed session.remaining
      obtain ⟨after, attempts, reflects⟩ := run.attempts
      rcases found : (body.rule name session.remaining).found with _ | ⟨item, taken⟩
      · rw [found] at attempts
        exact ⟨_, _, .done attempts⟩
      · rw [found] at run attempts reflects
        have progress := attempts.progress wellFormed consumes
        have less : after.remaining.length < size := by
          have := run.progress consumes rfl
          have := (run.passes rfl).1
          rw [reflects.remaining, List.length_drop]
          omega
        obtain ⟨items, last, row⟩ := shorter _ less after rfl
        exact ⟨_, _, .next attempts progress row⟩

/-- A repetition takes matches in a row. -/
theorem Attempts.row {name : RuleName} {body : Phrase α} {session after : ParseSession}
    {result : Option (List α)} (wellFormed : (Phrase.many body).wellFormed = true)
    (attempts : Attempts name (.many body) session result after) :
    ∃ items, result = some items ∧ Row name body session items after := by
  obtain ⟨consumes, inner⟩ := Bool.and_eq_true_iff.mp wellFormed
  obtain ⟨items, state, row⟩ := exists_row consumes inner session
  have again : Attempts name (.many body) session (some items) state := ⟨_, row.executes, rfl⟩
  obtain ⟨rfl, rfl⟩ := again.unique wellFormed attempts
  exact ⟨items, rfl, row⟩

end Peg

namespace ParseSession

/-- The answer when the cursor stands behind all declarations, and the session that it leaves. -/
def conclude (session : ParseSession) (found : List Declaration) :
    Except SyntaxError Program × ParseSession :=
  let record := reported session.furthest session.position
  if (session.tokenAt session.position).isEnd then (.ok ⟨found⟩, session)
  else
    (.error (record.toSyntaxError (session.tokenAt record.position)),
      { session with furthest := some record })

/-- Parsing is one attempt at all declarations. -/
theorem exists_attempt (session : ParseSession) :
    ∃ found after, Attempts .program declarations session (some found) after ∧
      session.parse = after.conclude found := by
  obtain ⟨misses, found, taken, run⟩ := session.exists_run_behind
  obtain ⟨⟨tokens, position, furthest⟩, attempts, reflects⟩ := run.attempts
  obtain rfl : tokens = session.tokens := reflects.tokens
  obtain rfl : position = _ := reflects.position rfl
  obtain rfl : furthest = _ := reflects.furthest
  exact ⟨found, _, attempts, parse_of_run run⟩

/-- Wherever the cursor of a session stands, each rule comes to one end, which is what the rule
replies there: after a match the cursor is further on, after a failure it is back, and the tokens
have stayed.  All parts of the rules come to one end too.  An option that is not taken leaves the
cursor where it was, and what is repeated always takes a token, so a repetition ends only where its
body fails.  And parsing is to attempt all declarations and to look at the token behind them. -/
theorem rules_settle (session : ParseSession) :
    (∀ {α : Type} (symbol : Nonterminal α),
      let reply := ruleOf symbol session.remaining
      ∃ result after, Settles symbol.name (definition symbol) session result after ∧
        Reflects session reply.misses reply.found result after ∧
        (result ≠ none → session.position < after.position)) ∧
    (∀ {α : Type} {name : RuleName} {phrase : Phrase α}, InGrammar name phrase →
      let reply := phrase.rule name session.remaining
      ∃ result after, Settles name phrase session result after ∧
        Reflects session reply.misses reply.found result after) ∧
    (∀ {α : Type} {name : RuleName} {body : Phrase α}, InGrammar name (.optional body) →
      ∀ after, Attempts name (.optional body) session (some none) after →
        Attempts name body session none after ∧ after.tokens = session.tokens ∧
          after.position = session.position) ∧
    (∀ {α : Type} {name : RuleName} {body : Phrase α}, InGrammar name (.many body) →
      (∀ item taken, (body.rule name session.remaining).found = some (item, taken) → 0 < taken) ∧
      (∀ item after, Attempts name body session (some item) after →
        session.position < after.position) ∧
      ∀ result after, Attempts name (.many body) session result after →
        ∃ items, result = some items ∧ Row name body session items after) ∧
    ∃ found after, Attempts .program declarations session (some found) after ∧
      session.parse = after.conclude found := by
  refine ⟨fun symbol => ?_, fun inGrammar => ?_, fun inGrammar after skipped => ?_,
    fun inGrammar => ?_, session.exists_attempt⟩
  · have wellFormed := definition_wellFormed symbol
    obtain ⟨result, after, attempts, reflects⟩ := Phrase.attempts wellFormed symbol.name session
    have settles := attempts.settles wellFormed
    rw [← rule_eq symbol] at reflects
    exact ⟨result, after, settles, reflects, settles.progress (definition_consumes symbol)⟩
  · obtain ⟨result, after, attempts, reflects⟩ :=
      Phrase.attempts inGrammar.wellFormed _ session
    exact ⟨result, after, attempts.settles inGrammar.wellFormed, reflects⟩
  · have missed := skipped.of_optional inGrammar.wellFormed
    exact ⟨missed, (missed.settles inGrammar.optional.wellFormed).tokens, missed.restored⟩
  · obtain ⟨consumes, wellFormed⟩ := Bool.and_eq_true_iff.mp inGrammar.wellFormed
    refine ⟨fun item taken found => ?_, fun item after matched => ?_,
      fun result after attempts => ?_⟩
    · exact (Phrase.run _ wellFormed session.remaining).progress consumes found
    · exact matched.progress wellFormed consumes
    · exact attempts.row inGrammar.wellFormed

/-- In front of a field that is decorated once, the repetition takes the decorator; behind the
decorator no argument follows, and the option leaves the cursor there. -/
theorem rules_settle_of_decorated_field :
    let tokens : List Token := [⟨.symbol, "@", ⟨1, 1⟩⟩, ⟨.identifier, "read", ⟨1, 2⟩⟩,
      ⟨.identifier, "balance", ⟨1, 7⟩⟩, ⟨.symbol, ":", ⟨1, 14⟩⟩, ⟨.identifier, "number", ⟨1, 16⟩⟩]
    let session : ParseSession := ⟨tokens, 0, none⟩
    let behind : ParseSession := ⟨tokens, 2, none⟩
    let argument : Phrase String := .between '(' ')' (.token .identifier)
    (∃ after, Settles .field (.many (.reference .decorator)) session (some [⟨⟨1, 1⟩, .read, []⟩])
        after ∧ Row .field (.reference .decorator) session [⟨⟨1, 1⟩, .read, []⟩] after ∧
      after.position = 2) ∧
    (∃ after, Attempts .field (.reference .decorator) session (some ⟨⟨1, 1⟩, .read, []⟩) after ∧
      session.position < after.position) ∧
    ∃ after, Attempts .decorator (.optional argument) behind (some none) after ∧
      Attempts .decorator argument behind none after ∧ after.position = 2 := by
  intro tokens session behind argument
  have repeated : InGrammar .field (.many (.reference .decorator)) :=
    .first (.located (.rule .field))
  have optional : InGrammar .decorator (.optional argument) :=
    .second (.second (.map (.located (.rule .decorator))))
  obtain ⟨_, parts, _, rows, _⟩ := rules_settle session
  refine ⟨?_, ?_, ?_⟩
  · obtain ⟨result, after, settles, reflects⟩ := parts repeated
    obtain rfl : result = some [⟨⟨1, 1⟩, .read, []⟩] := reflects.result
    obtain ⟨_, same, row⟩ := (rows repeated).2.2 _ after settles.attempts
    cases same
    exact ⟨after, settles, row, reflects.position rfl⟩
  · obtain ⟨result, after, settles, reflects⟩ := parts repeated.many
    obtain rfl : result = some ⟨⟨1, 1⟩, .read, []⟩ := reflects.result
    exact ⟨after, settles.attempts, (rows repeated).2.1 _ after settles.attempts⟩
  · obtain ⟨_, parts, options, _⟩ := rules_settle behind
    obtain ⟨result, after, settles, reflects⟩ := parts optional
    obtain rfl : result = some none := reflects.result
    obtain ⟨missed, _, restored⟩ := options optional after settles.attempts
    exact ⟨after, settles.attempts, missed, restored⟩

end ParseSession

end CollectionSchema
