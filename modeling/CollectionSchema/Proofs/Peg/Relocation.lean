import CollectionSchema.Proofs.Peg.Locality
import CollectionSchema.Proofs.Syntax.Relocation

/-!
# Matches at other places

The places of tokens do not decide how a phrase turns out, and a match builds the
same value with its places moved like those of the tokens.  For each phrase this
asks for a way to move the places in its values that goes along with what the
phrase builds (`Phrase.Carries`).
-/

set_option autoImplicit false

namespace CollectionSchema.Peg

variable {α β : Type} (move : Position → Position)

/-- How the places in the values of a symbol are moved. -/
def Nonterminal.relocate : {α : Type} → Nonterminal α → α → α
  | _, .declaration => Declaration.relocate move
  | _, .collection => Collection.relocate move
  | _, .item => Item.relocate move
  | _, .field => Field.relocate move
  | _, .index => Index.relocate move
  | _, .indexField => IndexField.relocate move
  | _, .function => Function.relocate move
  | _, .decorator => Decorator.relocate move
  | _, .type | _, .mapType | _, .objectType => SchemaType.relocate move
  | _, .arraySuffix => id
  | _, .statement | _, .compound | _, .conditional | _, .whileLoop | _, .forLoop =>
      Statement.relocate move
  | _, .simple => SimpleStatement.relocate move
  | _, .small => SmallStatement.relocate move
  | _, .letBinding => Let.relocate move
  | _, .branch => Branch.relocate move
  | _, .expression => Expression.relocate move
  | _, .value | _, .call => Value.relocate move

/-- A way to move the places in the values of a phrase that goes along with what the phrase
builds. -/
def Phrase.Carries : {α : Type} → Phrase α → (α → α) → Prop
  | _, .token _, action => action = id
  | _, .reference symbol, action => action = symbol.relocate move
  | _, .sequence first second, action => ∃ left right, first.Carries left ∧
      second.Carries right ∧ action = Prod.map left right
  | _, .choice first second, action => first.Carries action ∧ second.Carries action
  | _, .optional body, action => ∃ inner, body.Carries inner ∧ action = Option.map inner
  | _, .many body, action => ∃ inner, body.Carries inner ∧ action = List.map inner
  | _, .flagged _ body, action => ∃ inner, body.Carries inner ∧ action = Prod.map id inner
  | _, .operation operand, action => ∃ inner, operand.Carries inner ∧ action = Prod.map id inner
  | _, .map build body, action => ∃ inner, body.Carries inner ∧
      ∀ value, action (build value) = build (inner value)
  | _, .located build body, action => ∃ inner, body.Carries inner ∧
      ∀ place value, action (build place value) = build (move place) (inner value)

namespace Phrase.Carries

variable {move}

theorem behind {terminal : Terminal Unit} {body : Phrase α} {action : α → α}
    (carries : body.Carries move action) : (Phrase.behind terminal body).Carries move action :=
  ⟨_, ⟨_, _, rfl, carries, rfl⟩, fun _ => rfl⟩

theorem before {terminal : Terminal Unit} {body : Phrase α} {action : α → α}
    (carries : body.Carries move action) : (Phrase.before body terminal).Carries move action :=
  ⟨_, ⟨_, _, carries, rfl, rfl⟩, fun _ => rfl⟩

theorem between {opening closing : Char} {body : Phrase α} {action : α → α}
    (carries : body.Carries move action) :
    (Phrase.between opening closing body).Carries move action :=
  behind (before carries)

theorem many {body : Phrase α} {action : α → α} (carries : body.Carries move action) :
    (Phrase.many body).Carries move (List.map action) :=
  ⟨_, carries, rfl⟩

theorem braced {body : Phrase α} {action : α → α} (carries : body.Carries move action) :
    (Phrase.braced body).Carries move (List.map action) :=
  between (many carries)

theorem sequence {first : Phrase α} {second : Phrase β} {left : α → α} {right : β → β}
    (before : first.Carries move left) (after : second.Carries move right) :
    (Phrase.sequence first second).Carries move (Prod.map left right) :=
  ⟨_, _, before, after, rfl⟩

theorem optional {body : Phrase α} {action : α → α} (carries : body.Carries move action) :
    (Phrase.optional body).Carries move (Option.map action) :=
  ⟨_, carries, rfl⟩

theorem separated {body : Phrase α} {action : α → α} (carries : body.Carries move action) :
    (Phrase.separated body).Carries move (List.map action) := by
  refine ⟨_, ⟨List.map action, ⟨_, sequence carries (many (behind carries)), ?_⟩, rfl⟩, ?_⟩
  · exact fun _ => rfl
  · rintro (_ | _) <;> rfl

end Phrase.Carries

open Phrase.Carries in
theorem definition_carries (symbol : Nonterminal α) :
    (definition symbol).Carries move (symbol.relocate move) := by
  cases symbol with
  | declaration => exact ⟨⟨_, rfl, fun _ => rfl⟩, ⟨_, rfl, fun _ => rfl⟩⟩
  | collection =>
      exact ⟨_, sequence (many rfl) (behind (sequence rfl (braced rfl))), fun _ _ => rfl⟩
  | item =>
      exact ⟨⟨_, before rfl, fun _ => rfl⟩, ⟨_, rfl, fun _ => rfl⟩, ⟨_, before rfl, fun _ => rfl⟩⟩
  | field =>
      exact ⟨_, sequence (many rfl) (sequence rfl ⟨_, behind rfl, rfl⟩), fun _ _ => rfl⟩
  | index => exact ⟨_, behind (sequence rfl (between (separated rfl))), fun _ _ => rfl⟩
  | indexField =>
      exact ⟨⟨_, between (sequence rfl (behind rfl)), fun _ _ => rfl⟩, ⟨_, rfl, fun _ _ => rfl⟩⟩
  | function =>
      exact ⟨_, sequence (many rfl) (sequence ⟨behind rfl, rfl⟩ (sequence (between (separated rfl))
        (sequence (optional (behind rfl)) (braced rfl)))), fun _ _ => rfl⟩
  | decorator =>
      refine ⟨_, behind (sequence rfl (optional (between rfl))), fun _ value => ?_⟩
      rcases value with ⟨_, _ | _⟩ <;> rfl
  | type =>
      refine ⟨⟨_, sequence rfl (optional rfl), fun _ value => ?_⟩, rfl, rfl,
        ⟨_, rfl, fun _ _ => ?_⟩⟩
      · rcases value with ⟨_, _ | _⟩ <;>
          simp only [Nonterminal.relocate, SchemaType.relocate] <;> rfl
      · simp only [Nonterminal.relocate, SchemaType.relocate, id_eq]
  | arraySuffix => exact behind rfl
  | mapType =>
      refine ⟨_, behind (between (sequence rfl (behind rfl))), fun _ _ => ?_⟩
      simp only [Nonterminal.relocate, SchemaType.relocate]
      rfl
  | objectType =>
      refine ⟨_, braced (before rfl), fun _ _ => ?_⟩
      simp only [Nonterminal.relocate, SchemaType.relocate, relocateFields_eq_map]
  | statement =>
      refine ⟨rfl, ⟨_, rfl, fun _ => ?_⟩⟩
      simp only [Nonterminal.relocate, Statement.relocate]
  | compound => exact ⟨rfl, rfl, rfl⟩
  | simple => exact ⟨_, before rfl, fun _ _ => rfl⟩
  | small =>
      exact ⟨⟨_, rfl, fun _ => rfl⟩, ⟨_, behind rfl, fun _ => rfl⟩, ⟨_, behind rfl, fun _ => rfl⟩,
        ⟨_, rfl, fun _ => rfl⟩, ⟨_, rfl, fun _ => rfl⟩⟩
  | letBinding => exact ⟨_, behind (sequence rfl (behind rfl)), fun _ _ => rfl⟩
  | conditional =>
      refine ⟨_, behind (sequence (between rfl) (sequence (optional rfl)
        (optional (behind rfl)))), fun _ value => ?_⟩
      rcases value with ⟨_, _ | _, _ | _⟩ <;>
        simp only [Nonterminal.relocate, Statement.relocate, Branch.relocate, Prod.map,
          Option.map_none, Option.map_some, Option.getD_none, Option.getD_some]
  | branch =>
      refine ⟨⟨_, braced rfl, fun _ => ?_⟩, ⟨_, rfl, fun _ => ?_⟩⟩
      · simp only [Nonterminal.relocate, Branch.relocate, relocateStatements_eq_map]
      · simp only [Nonterminal.relocate, Branch.relocate]
  | whileLoop =>
      refine ⟨_, behind (sequence (between rfl) (braced rfl)), fun _ _ => ?_⟩
      simp only [Nonterminal.relocate, Statement.relocate, relocateStatements_eq_map]
      rfl
  | forLoop =>
      have init : (Phrase.choice (.map ForInit.let (.reference .letBinding))
          (.map ForInit.expression (.reference .expression))).Carries move
            (ForInit.relocate move) :=
        ⟨⟨_, rfl, fun _ => rfl⟩, ⟨_, rfl, fun _ => rfl⟩⟩
      refine ⟨_, behind (sequence (between (sequence (before init) (sequence (before rfl) rfl)))
        (braced rfl)), fun _ _ => ?_⟩
      simp only [Nonterminal.relocate, Statement.relocate, relocateStatements_eq_map]
      rfl
  | expression =>
      refine ⟨_, sequence rfl (optional ⟨_, rfl, rfl⟩), fun value => ?_⟩
      rcases value with ⟨left, _ | ⟨operator, right⟩⟩ <;>
        simp only [Nonterminal.relocate, Expression.relocate, Prod.map, Option.map_none,
          Option.map_some, Value.position_relocate, id_eq]
  | value =>
      refine ⟨⟨_, rfl, fun _ _ => ?_⟩, ⟨_, rfl, fun _ _ => ?_⟩, ⟨_, rfl, fun _ _ => ?_⟩, rfl,
        ⟨_, rfl, fun _ _ => ?_⟩, ⟨_, between rfl, fun _ _ => ?_⟩⟩ <;>
        simp only [Nonterminal.relocate, Value.relocate, id_eq]
  | call =>
      refine ⟨_, sequence rfl (between (separated rfl)), fun _ _ => ?_⟩
      simp only [Nonterminal.relocate, Value.relocate, relocateExpressions_eq_map]
      rfl

/-! ## Runs at other places -/

@[simp] theorem Terminal.read_relocate (terminal : Terminal α) (token : Token) :
    terminal.read (token.relocate move) = terminal.read token := by
  cases terminal <;> rfl

theorem look_operator_relocate (tokens : List Token) :
    Recognizer.operator.look (tokens.map (Token.relocate move)) =
      Recognizer.operator.look tokens := by
  rcases tokens with _ | ⟨first, _ | ⟨second, rest⟩⟩ <;> rfl

/-- A result with its places moved. -/
def relocated (action : α → α) (found : Option (α × Nat)) : Option (α × Nat) :=
  found.map fun result => (action result.1, result.2)

theorem relocated_further {build : α → β} {action : β → β} (other : α → β) (inner : α → α)
    (same : ∀ value, action (build value) = other (inner value)) (taken : Nat)
    (found : Option (α × Nat)) :
    relocated action (further build taken found) = further other taken (relocated inner found) := by
  rcases found with _ | ⟨value, more⟩
  · rfl
  · simp [relocated, same]

/-- On tokens at other places, a run takes the same tokens, leaves the same notes and builds the
same value with its places moved. -/
theorem Run.relocate {name : RuleName} {phrase : Phrase α} {tokens : List Token}
    {misses : List Miss} {found : Option (α × Nat)} (run : Run name phrase tokens misses found) :
    ∀ {action : α → α}, phrase.Carries move action →
      Run name phrase (tokens.map (Token.relocate move)) misses (relocated action found) := by
  induction run with
  | @token _ _ terminal first _ _ read =>
      rintro _ rfl
      exact .token ((terminal.read_relocate move first).trans read)
  | @tokenMissed _ name terminal tokens unread =>
      rintro _ rfl
      have misses : terminal.misses name (tokens.map (Token.relocate move)).head? =
          terminal.misses name tokens.head? := by
        rcases tokens with _ | ⟨first, rest⟩
        · rfl
        · cases terminal <;> rfl
      rw [← misses]
      refine .tokenMissed ?_
      rcases tokens with _ | ⟨first, rest⟩
      · rfl
      · exact (terminal.read_relocate move first).trans unread
  | @reference _ _ symbol _ _ _ _ ih =>
      rintro _ rfl
      exact .reference (ih (definition_carries move symbol))
  | sequenceMissed _ ih =>
      rintro _ ⟨_, _, left, _, rfl⟩
      exact .sequenceMissed (ih left)
  | @sequence _ _ _ _ _ _ _ _ value _ _ _ _ ihLeft ihRight =>
      rintro _ ⟨left, right, carriesLeft, carriesRight, rfl⟩
      have behind := ihRight carriesRight
      rw [List.map_drop] at behind
      rw [relocated_further (fun result => (left value, result)) right fun _ => rfl]
      exact .sequence (ihLeft carriesLeft) behind
  | choiceFirst _ ih =>
      rintro _ ⟨left, _⟩
      exact .choiceFirst (ih left)
  | choiceSecond _ _ ihLeft ihRight =>
      rintro _ ⟨left, right⟩
      exact .choiceSecond (ihLeft left) (ihRight right)
  | optional _ ih =>
      rintro _ ⟨_, carries, rfl⟩
      exact .optional (ih carries)
  | optionalMissed _ ih =>
      rintro _ ⟨_, carries, rfl⟩
      exact .optionalMissed (ih carries)
  | manyEnd _ ih =>
      rintro _ ⟨_, carries, rfl⟩
      exact .manyEnd (ih carries)
  | many consumes _ _ ihInner ihOthers =>
      rintro _ ⟨action, carries, rfl⟩
      have behind := ihOthers ⟨action, carries, rfl⟩
      rw [List.map_drop] at behind
      exact .many consumes (ihInner carries) behind
  | flagged set _ ih =>
      rintro _ ⟨inner, carries, rfl⟩
      rw [relocated_further (fun value => (true, value)) inner fun _ => rfl]
      exact .flagged set (ih carries)
  | flaggedUnset consumes unset _ ih =>
      rintro _ ⟨inner, carries, rfl⟩
      rw [relocated_further (fun value => (false, value)) inner fun _ => rfl]
      refine .flaggedUnset consumes (fun first member => ?_) (ih carries)
      rw [List.head?_map] at member
      obtain ⟨token, here, rfl⟩ := Option.map_eq_some_iff.mp member
      exact unset token here
  | operationMissed unread =>
      rintro _ ⟨_, _, rfl⟩
      exact .operationMissed ((look_operator_relocate move _).trans unread)
  | @operation _ _ _ _ operator _ _ _ consumes read _ ih =>
      rintro _ ⟨inner, carries, rfl⟩
      have behind := ih carries
      rw [List.map_drop] at behind
      rw [relocated_further (fun value => (operator, value)) inner fun _ => rfl]
      exact .operation consumes ((look_operator_relocate move _).trans read) behind
  | @map _ _ _ build _ _ _ _ _ ih =>
      rintro _ ⟨inner, carries, same⟩
      rw [relocated_further build inner same]
      exact .map (ih carries)
  | @located _ _ _ build _ tokens _ found consumes run ih =>
      rintro _ ⟨inner, carries, same⟩
      have whole : Run _ (.located build _) _ _ _ := .located consumes (ih carries)
      rcases found with _ | ⟨value, taken⟩
      · exact whole
      · -- A match takes a token, so the place that it holds is the place of a token.
        have progress := run.progress consumes rfl
        have passed := (run.passes rfl).1
        rcases tokens with _ | ⟨first, rest⟩
        · rw [List.length_nil] at passed
          omega
        · have moved := relocated_further (build (move first.position)) inner (same first.position)
            0 (some (value, taken))
          exact moved ▸ whole

end CollectionSchema.Peg
