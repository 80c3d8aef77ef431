import CollectionSchema.Proofs.NumberError
import CollectionSchema.Proofs.Peg.Report

/-!
# Errors about argument lists

Where the next statement of a function is a call whose list of arguments breaks off,
the parse fails at the token that cannot continue the list.  Three things were wanted
there: a parenthesis that makes a call of a name at the end of the last argument, an
operator behind it, and the comma or parenthesis that the list needs.  All of them are
noted by rules that are also tried only to look ahead, so none of them gives way to a
later one: the error names the rule that came first.  That is the expression, not the
call, whenever the last argument is a single value that is no plain name.
-/

set_option autoImplicit false

namespace CollectionSchema

open Peg

/-! ## The record of far notes -/

theorem Peg.farFrom_cons_of_le {place : Nat} {first : Miss} (far : place ≤ first.position)
    (rest : List Miss) : farFrom place (first :: rest) = first :: farFrom place rest :=
  List.filter_cons_of_pos (by simpa using far)

theorem Peg.farFrom_cons_of_lt {place : Nat} {first : Miss} (near : first.position < place)
    (rest : List Miss) : farFrom place (first :: rest) = farFrom place rest :=
  List.filter_cons_of_neg (by simpa using near)

namespace Furthest

variable {place : Nat} {misses : List Miss}

/-- Behind a record that has come as far as a place, the notes in front of the place do not
count. -/
theorem recordAll_of_reached : ∀ {known : Furthest}, place ≤ known.position →
    recordAll (some known) misses = recordAll (some known) (farFrom place misses) := by
  induction misses with
  | nil => exact fun _ => rfl
  | cons first rest ih =>
      intro known reached
      rcases Nat.lt_or_ge first.position place with near | far
      · have kept : record (some known) first = some known := if_pos (by omega)
        rw [farFrom_cons_of_lt near, recordAll, List.foldl_cons, kept]
        exact ih reached
      · obtain ⟨next, step, further⟩ := record_position known first
        rw [farFrom_cons_of_le far, recordAll, recordAll, List.foldl_cons, List.foldl_cons, step]
        exact ih (by omega)

/-- The record of notes that reach a place is the record of those that point there or behind it. -/
theorem recordAll_farFrom : ∀ {known : Option Furthest},
    (∀ before ∈ known, before.position < place) → farFrom place misses ≠ [] →
      recordAll known misses = recordAll none (farFrom place misses) := by
  induction misses with
  | nil => exact fun _ none => absurd rfl none
  | cons first rest ih =>
      intro known before reached
      rcases Nat.lt_or_ge first.position place with near | far
      · rw [farFrom_cons_of_lt near] at reached ⊢
        rw [recordAll, List.foldl_cons]
        refine ih (fun next made => ?_) reached
        rcases known with _ | known
        · cases made
          exact near
        · obtain ⟨other, step, further⟩ := record_position known first
          rw [step] at made
          cases made
          have := before known rfl
          omega
      · have start : record known first = some (ofMiss first) := by
          rcases known with _ | known
          · rfl
          · have := before known rfl
            rw [record, if_neg (by omega), if_neg (by omega)]
        rw [farFrom_cons_of_le far, recordAll, recordAll, List.foldl_cons, List.foldl_cons, start]
        exact recordAll_of_reached far

end Furthest

/-- The rule that is named when a list of arguments breaks off behind this one. -/
def Expression.brokenRule (last : Expression) : RuleName :=
  if last.isSingle && !last.last.isName then .expression else .call

/-- What is wanted behind the last argument of a list that breaks off. -/
def Expression.wanted (last : Expression) : List Expectation := (argumentWishes last).map Prod.snd

namespace Furthest

theorem recordAll_argumentWishes (place : Nat) (last : Expression) :
    recordAll none (notesAt place (argumentWishes last)) =
      some ⟨place, false, last.brokenRule, last.wanted⟩ := by
  rcases isName : last.last.isName with _ | _ <;> rcases isSingle : last.isSingle with _ | _ <;>
    simp [argumentWishes, expressionWishes, valueWishes, notesAt, Expression.brokenRule,
      Expression.wanted, isName, isSingle, recordAll, record, merge, ofMiss, RuleName.isLookahead]

/-- The record of a report is the record of the wishes that are reported. -/
theorem recordAll_of_reports {place : Nat} {misses : List Miss}
    {wishes : List (RuleName × Expectation)} {record : Furthest}
    (reports : Reports wishes place misses) (wished : wishes ≠ [])
    (all : recordAll none (notesAt place wishes) = some record) :
    recordAll none misses = some record := by
  obtain ⟨others, noted, known⟩ := reports
  have some : farFrom place misses ≠ [] := by
    rw [noted, notesAt]
    simp [wished]
  have absorbs : ∀ miss ∈ others, record.Absorbs miss := fun miss member =>
    (recordAll_absorbs all).1 miss (known miss member)
  calc recordAll none misses
      = recordAll none (farFrom place misses) := recordAll_farFrom (by simp) some
    _ = recordAll (recordAll none (notesAt place wishes)) others := by
        rw [noted]
        exact List.foldl_append
    _ = _ := by rw [all, recordAll_of_absorbs absorbs]

end Furthest

/-! ## The next statement of a function -/

/-- A rule takes so many tokens from the front of some tokens. -/
def Rule.Takes {α : Type} (rule : Rule α) (tokens : List Token) (taken : Nat) : Prop :=
  ∃ value, (rule tokens).found = some (value, taken)

/-- The next statement of a function is read behind so many tokens.  Declarations have been read in
front of the function, or in front of the collection that it is an item of, and then the head of the
function and statements of its body. -/
inductive AtStatement (tokens : List Token) : Nat → Prop
  | function {declared head body : Nat}
      (declarations : (Rule.many Grammar.declaration).Takes tokens declared)
      (opens : (functionHead.rule .function).Takes (tokens.drop declared) head)
      (statements : (Rule.many Grammar.statement).Takes ((tokens.drop declared).drop head) body) :
      AtStatement tokens (declared + (head + body))
  | method {declared outer inside head body : Nat}
      (declarations : (Rule.many Grammar.declaration).Takes tokens declared)
      (collection : (collectionHead.rule .collection).Takes (tokens.drop declared) outer)
      (items : (Rule.many Grammar.item).Takes ((tokens.drop declared).drop outer) inside)
      (opens : (functionHead.rule .function).Takes
        (((tokens.drop declared).drop outer).drop inside) head)
      (statements : (Rule.many Grammar.statement).Takes
        ((((tokens.drop declared).drop outer).drop inside).drop head) body) :
      AtStatement tokens (declared + (outer + (inside + (head + body))))

namespace Peg

theorem Phrase.run_of_takes {α : Type} (name : RuleName) (phrase : Phrase α) {tokens : List Token}
    {taken : Nat} (takes : (phrase.rule name).Takes tokens taken)
    (wellFormed : phrase.wellFormed = true) :
    ∃ misses value, Run name phrase tokens misses (some (value, taken)) := by
  obtain ⟨value, found⟩ := takes
  have run := Phrase.run name wellFormed tokens
  rw [found] at run
  exact ⟨_, value, run⟩

theorem Passes.exists_head {tokens : List Token} {count : Nat} (passes : Passes tokens count)
    (positive : 0 < count) : ∃ first ∈ tokens.head?, first.isEnd = false := by
  obtain ⟨length, proper⟩ := passes.mono positive
  rcases tokens with _ | ⟨first, rest⟩
  · exact absurd length (Nat.not_succ_le_zero 0)
  · exact ⟨first, rfl, proper first (by simp)⟩

section Contexts

variable {tokens : List Token} {misses : List Miss} {found : List Declaration}
  {taken place far : Nat} {wishes : List (RuleName × Expectation)}

/-- Declarations that end in front of a function whose statements end at a broken call report it. -/
theorem Run.reports_of_atStatement
    (run : Run .program declarations tokens misses (some (found, taken)))
    (context : AtStatement tokens place) (broken : BrokenCall wishes far (tokens.drop place)) :
    Reports wishes (place + far) misses ∧ taken < place + far ∧
      ∃ first ∈ (tokens.drop taken).head?, first.isEnd = false := by
  have inCall := broken.inside
  cases context with
  | @function declared head body before opens read =>
      obtain ⟨_, _, again⟩ := Phrase.run_of_takes .program declarations before rfl
      obtain ⟨_, matched⟩ := run.unique again
      cases matched
      obtain ⟨_, _, start⟩ := Phrase.run_of_takes .function functionHead opens rfl
      obtain ⟨_, _, statements⟩ :=
        Phrase.run_of_takes .function (.many (.reference .statement)) read rfl
      rw [← List.drop_drop, ← List.drop_drop] at broken
      obtain ⟨⟨notes, function, reports⟩, before, stands⟩ :=
        function_reports start statements broken
      refine ⟨?_, by omega, (start.passes rfl).exists_head (start.progress rfl rfl)⟩
      rw [Nat.add_assoc, Nat.add_assoc]
      exact declarations_report run (by omega) fun fails =>
        declaration_reports fails function reports (stands.mono (Nat.le_add_right _ _))
  | @method declared outer inside head body before collection read opens statements =>
      obtain ⟨_, _, again⟩ := Phrase.run_of_takes .program declarations before rfl
      obtain ⟨_, matched⟩ := run.unique again
      cases matched
      obtain ⟨_, _, start⟩ := Phrase.run_of_takes .collection collectionHead collection rfl
      obtain ⟨_, _, items⟩ := Phrase.run_of_takes .collection (.many (.reference .item)) read rfl
      obtain ⟨_, _, inner⟩ := Phrase.run_of_takes .function functionHead opens rfl
      obtain ⟨_, _, statements⟩ :=
        Phrase.run_of_takes .function (.many (.reference .statement)) statements rfl
      rw [← List.drop_drop, ← List.drop_drop, ← List.drop_drop, ← List.drop_drop] at broken
      obtain ⟨⟨notes, function, reports⟩, before, stands⟩ :=
        function_reports inner statements broken
      refine ⟨?_, by omega, (start.passes rfl).exists_head (start.progress rfl rfl)⟩
      rw [Nat.add_assoc, Nat.add_assoc, Nat.add_assoc, Nat.add_assoc]
      exact declarations_report run (by omega) fun fails =>
        collection_reports fails start items function reports
          (stands.mono (Nat.le_add_right _ _))

end Contexts

end Peg

/-! ## The error of a broken call -/

theorem argumentWishes_ne_nil (last : Expression) : argumentWishes last ≠ [] := by
  simp [argumentWishes]

open ParseSession in
/-- Where the next statement of a function is a call whose list of arguments breaks off, the parse
fails at the token that cannot continue the list.  The error lists all that was wanted there, and it
names the expression if the last argument is a single value but no plain name, and the call
otherwise. -/
theorem parse_broken_call {tokens arguments rest : List Token} {callee opening next : Token}
    {last : Expression} {place : Nat} (context : AtStatement (closed tokens) place)
    (here : (closed tokens).drop place = callee :: opening :: (arguments ++ next :: rest))
    (opens : OpensCall callee opening) (writes : WritesArguments arguments last)
    (ends : EndsArguments last next) :
    failurePlace tokens = some (place + (2 + arguments.length)) ∧
      parse tokens = .error (SyntaxError.unexpectedToken .grammar last.brokenRule.text
        (last.wanted.map Expectation.text) next) := by
  obtain ⟨misses, found, taken, run⟩ := exists_run tokens
  have broken : BrokenCall (argumentWishes last) (2 + arguments.length)
      ((closed tokens).drop place) := by
    rw [here]
    obtain ⟨notes, fails, far⟩ := call_of_arguments opens.kind opens.mark writes ends
    exact ⟨⟨callee, opening, _, rfl, opens⟩,
      ⟨notes, fails, [], by rw [far, List.append_nil], nofun⟩,
      Nat.le_add_right 2 _, argumentWishes_ne_nil last⟩
  obtain ⟨reports, further, first, head, proper⟩ := run.reports_of_atStatement context broken
  have record := Furthest.recordAll_of_reports reports (argumentWishes_ne_nil last)
    (Furthest.recordAll_argumentWishes _ last)
  have more : ((ofTokens tokens).tokenAt taken).isEnd = false := by
    rw [List.head?_drop] at head
    rw [tokenAt, ofTokens, Option.mem_def.mp head]
    exact proper
  have shown : reported (Furthest.recordAll none misses) taken =
      ⟨place + (2 + arguments.length), false, last.brokenRule, last.wanted⟩ := by
    rw [record]
    exact reported_of_lt further
  have found : (ofTokens tokens).tokenAt (place + (2 + arguments.length)) = next := by
    rw [tokenAt, ofTokens, ← List.getElem?_drop, here, Nat.add_comm 2]
    simp
  refine ⟨by rw [failurePlace_of_run run more, shown], ?_⟩
  rw [parse_of_not_ended run more, shown]
  simp only [found]
  rfl

/-- Tokens that write a function whose only statement is a call with a number as its argument, up to
a name that cannot follow the number. -/
def brokenAtNumber : List Token := [⟨.identifier, "f", ⟨1, 1⟩⟩, ⟨.symbol, "(", ⟨1, 2⟩⟩,
  ⟨.symbol, ")", ⟨1, 3⟩⟩, ⟨.symbol, "\x7b", ⟨1, 5⟩⟩, ⟨.identifier, "g", ⟨1, 7⟩⟩,
  ⟨.symbol, "(", ⟨1, 8⟩⟩, ⟨.number, "1", ⟨1, 9⟩⟩, ⟨.identifier, "b", ⟨1, 11⟩⟩]

/-- Behind a number, the error of a broken list of arguments names the expression. -/
theorem parse_broken_call_of_number :
    let last : Expression := .single ⟨1, 9⟩ (.number ⟨1, 9⟩ 1)
    failurePlace brokenAtNumber = some (4 + (2 + 1)) ∧
      parse brokenAtNumber = .error (SyntaxError.unexpectedToken .grammar last.brokenRule.text
        (last.wanted.map Expectation.text) ⟨.identifier, "b", ⟨1, 11⟩⟩) := by
  intro last
  have context : AtStatement (closed brokenAtNumber) (0 + (4 + 0)) :=
    .function ⟨_, rfl⟩ ⟨_, rfl⟩ ⟨_, rfl⟩
  have here : (closed brokenAtNumber).drop 4 = ⟨.identifier, "g", ⟨1, 7⟩⟩ ::
      ⟨.symbol, "(", ⟨1, 8⟩⟩ :: ([⟨.number, "1", ⟨1, 9⟩⟩] ++
        ⟨.identifier, "b", ⟨1, 11⟩⟩ :: [Token.endAt ⟨1, 11⟩]) := rfl
  exact parse_broken_call context here ⟨rfl, by decide, rfl⟩ (.last rfl)
    ⟨⟨nofun, by rintro _ _ ⟨⟩; rfl⟩, rfl, rfl⟩

/-- The rule that is named where a list of arguments breaks off is not always the call. -/
theorem broken_call_not_always_call :
    ¬ ∀ {tokens arguments rest : List Token} {callee opening next : Token} {last : Expression}
      {place : Nat}, AtStatement (closed tokens) place →
      (closed tokens).drop place = callee :: opening :: (arguments ++ next :: rest) →
      OpensCall callee opening → WritesArguments arguments last → EndsArguments last next →
      failurePlace tokens = some (place + (2 + arguments.length)) ∧
        ∃ error, parse tokens = .error error ∧ error.rule = some "call" := by
  intro always
  have context : AtStatement (closed brokenAtNumber) (0 + (4 + 0)) :=
    .function ⟨_, rfl⟩ ⟨_, rfl⟩ ⟨_, rfl⟩
  have here : (closed brokenAtNumber).drop 4 = ⟨.identifier, "g", ⟨1, 7⟩⟩ ::
      ⟨.symbol, "(", ⟨1, 8⟩⟩ :: ([⟨.number, "1", ⟨1, 9⟩⟩] ++
        ⟨.identifier, "b", ⟨1, 11⟩⟩ :: [Token.endAt ⟨1, 11⟩]) := rfl
  have arguments : WritesArguments [⟨.number, "1", ⟨1, 9⟩⟩] (.single ⟨1, 9⟩ (.number ⟨1, 9⟩ 1)) :=
    .last rfl
  obtain ⟨_, error, failed, rule⟩ := always context here ⟨rfl, by decide, rfl⟩ arguments
    ⟨⟨nofun, by rintro _ _ ⟨⟩; rfl⟩, rfl, rfl⟩
  have named : parse brokenAtNumber = .error ⟨.grammar,
    "expected operator, ',' or ')', found 'b'", ⟨1, 11⟩, some "expression", none⟩ := rfl
  rw [named] at failed
  cases failed
  exact absurd rule (by decide)

end CollectionSchema
