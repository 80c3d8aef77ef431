import CollectionSchema.Proofs.Peg.Normative
import CollectionSchema.Proofs.Rule.FixedPoint

/-!
# Phrases as rules

A phrase can be read as a rule of the kind that the library parses with: it then
also leaves notes, and every token that the phrase itself asks for is noted under
one name.  Read in this way, the phrase that defines a symbol is the very rule
that the library has for that symbol (`rule_eq`).  A statement about all rules of
the library can therefore be proved by induction over phrases.
-/

set_option autoImplicit false

namespace CollectionSchema.Peg

open Rule (here mark oneOf)

variable {α : Type}

/-! ## The rules of the library, symbol by symbol -/

/-- The name under which a symbol notes what it misses. -/
def Nonterminal.name : Nonterminal α → RuleName
  | .declaration => .program
  | .collection => .collection
  | .item => .item
  | .field => .field
  | .index => .index
  | .indexField => .indexField
  | .function => .function
  | .decorator => .decorator
  | .type => .type
  | .arraySuffix => .arraySuffix
  | .mapType => .mapType
  | .objectType => .objectType
  | .statement | .compound | .simple | .small => .statement
  | .letBinding => .letBinding
  | .conditional => .conditional
  | .branch => .block
  | .whileLoop => .whileLoop
  | .forLoop => .forLoop
  | .expression => .expression
  | .value => .value
  | .call => .call

/-- The rule that the library has for a symbol. -/
def ruleOf : {α : Type} → Nonterminal α → Rule α
  | _, .declaration => Grammar.declaration
  | _, .collection => Grammar.collection
  | _, .item => Grammar.item
  | _, .field => Grammar.field
  | _, .index => Grammar.index
  | _, .indexField => Grammar.indexField
  | _, .function => Grammar.function
  | _, .decorator => Grammar.decorator
  | _, .type => Grammar.type
  | _, .arraySuffix => do
      mark .arraySuffix '['
      mark .arraySuffix ']'
  | _, .mapType => do Grammar.mapType Grammar.type (← here)
  | _, .objectType => do Grammar.objectType Grammar.type (← here)
  | _, .statement => Grammar.statement
  | _, .compound =>
      oneOf [Grammar.conditional Grammar.statement, Grammar.whileLoop Grammar.statement,
        Grammar.forLoop Grammar.statement]
  | _, .simple => Grammar.simpleStatement
  | _, .small => Grammar.smallStatement
  | _, .letBinding => Grammar.letBinding
  | _, .conditional => Grammar.conditional Grammar.statement
  | _, .branch => Grammar.branch Grammar.statement
  | _, .whileLoop => Grammar.whileLoop Grammar.statement
  | _, .forLoop => Grammar.forLoop Grammar.statement
  | _, .expression => Grammar.expression
  | _, .value => Grammar.valueOf Grammar.expression
  | _, .call => do Grammar.call Grammar.expression (← here)

/-- The rule that takes one token. -/
def Terminal.rule (name : RuleName) : {α : Type} → Terminal α → Rule α
  | _, .mark character => Rule.mark name character
  | _, .word spelling => Rule.word name spelling
  | _, .either first second =>
      Rule.accept name [.word first, .word second] (Terminal.either first second).read
  | _, .identifier => Rule.identifier name
  | _, .string => Rule.accept name [.string] Terminal.string.read
  | _, .number => Grammar.integer
  | _, .decoratorName => Recognizer.decoratorName.rule name
  | _, .sortOrder => Recognizer.sortOrder.rule name
  | _, .basicType => Recognizer.basicType.rule name

/-- A phrase as a rule that notes what it misses under a name. -/
def Phrase.rule (name : RuleName) : {α : Type} → Phrase α → Rule α
  | _, .token terminal => terminal.rule name
  | _, .reference symbol => ruleOf symbol
  | _, .sequence first second => do
      let left ← first.rule name
      let right ← second.rule name
      return (left, right)
  | _, .choice first second => oneOf [first.rule name, second.rule name]
  | _, .optional body => Rule.optional (body.rule name)
  | _, .many body => Rule.many (body.rule name)
  | _, .flagged character body => do
      let flag ← Rule.flag character
      let value ← body.rule name
      return (flag, value)
  | _, .operation operand => do
      let operator ← Recognizer.operator.rule name
      let value ← operand.rule name
      return (operator, value)
  | _, .map build body => do
      let value ← body.rule name
      return build value
  | _, .located build body => do
      let position ← here
      let value ← body.rule name
      return build position value

namespace Phrase

variable {β : Type} (name : RuleName)

theorem rule_token (terminal : Terminal α) : (token terminal).rule name = terminal.rule name := rfl

theorem rule_sequence (first : Phrase α) (second : Phrase β) :
    (sequence first second).rule name =
      first.rule name >>= fun left => second.rule name >>= fun right => pure (left, right) := rfl

theorem rule_optional (body : Phrase α) :
    (optional body).rule name = Rule.optional (body.rule name) := rfl

theorem rule_many (body : Phrase α) : (many body).rule name = Rule.many (body.rule name) := rfl

theorem rule_map (build : α → β) (body : Phrase α) :
    (map build body).rule name = body.rule name >>= fun value => pure (build value) := rfl

theorem rule_behind (terminal : Terminal Unit) (body : Phrase α) :
    (behind terminal body).rule name = terminal.rule name >>= fun _ => body.rule name := by
  simp only [behind, rule_map, rule_sequence, rule_token, bind_assoc, pure_bind, bind_pure]

theorem rule_before (body : Phrase α) (terminal : Terminal Unit) :
    (before body terminal).rule name =
      body.rule name >>= fun value => terminal.rule name >>= fun _ => pure value := by
  simp only [before, rule_map, rule_sequence, rule_token, bind_assoc, pure_bind]

theorem rule_between (opening closing : Char) (body : Phrase α) :
    (between opening closing body).rule name =
      mark name opening >>= fun _ => body.rule name >>= fun value =>
        mark name closing >>= fun _ => pure value := by
  simp only [between, rule_behind, rule_before, Terminal.rule]

theorem rule_braced (body : Phrase α) :
    (braced body).rule name = Rule.braced name (body.rule name) :=
  rule_between name _ _ _

theorem rule_separated (body : Phrase α) :
    (separated body).rule name = Rule.separated name (body.rule name) := by
  simp only [separated, rule_map, rule_optional, rule_sequence, rule_many, rule_behind,
    Terminal.rule, Rule.separated_eq, bind_assoc, pure_bind]

end Phrase

/-! ## Each definition is the rule of its symbol -/

theorem indexWord_eq :
    Grammar.indexWord = (Terminal.either "index" "unique").rule .index >>= fun plain =>
      pure (!plain) := by
  rw [Terminal.rule, Rule.accept_bind_pure, Grammar.indexWord]
  congr 1
  funext token
  simp only [Terminal.read]
  split
  · rfl
  · split <;> rfl

section Definitions

open Phrase (rule_behind rule_before rule_between rule_braced rule_separated)

theorem rule_eq : ∀ {α : Type} (symbol : Nonterminal α),
    ruleOf symbol = (definition symbol).rule symbol.name
  | _, .declaration => rfl
  | _, .collection => by
      simp only [definition, Phrase.rule, rule_behind, rule_braced, bind_assoc, pure_bind]
      rfl
  | _, .item => by
      simp only [definition, Phrase.rule, rule_before, bind_assoc, pure_bind]
      rw [← Rule.oneOf_cons]
      rfl
  | _, .field => by
      simp only [definition, Phrase.rule, rule_behind, bind_assoc, pure_bind]
      rfl
  | _, .index => by
      simp only [definition, Phrase.rule, rule_behind, rule_between, rule_separated, bind_assoc,
        pure_bind]
      simp only [ruleOf, Grammar.index, indexWord_eq, bind_assoc, pure_bind]
      rfl
  | _, .indexField => by
      simp only [definition, Phrase.rule, rule_behind, rule_between, bind_assoc, pure_bind]
      rfl
  | _, .function => by
      simp only [definition, Phrase.rule, rule_behind, rule_between, rule_braced, rule_separated,
        bind_assoc, pure_bind]
      rfl
  | _, .decorator => by
      simp only [definition, Phrase.rule, rule_behind, rule_between, bind_assoc, pure_bind]
      rfl
  | _, .type => by
      simp only [definition, Phrase.rule, bind_assoc, pure_bind, ← Rule.oneOf_cons]
      refine Grammar.type_eq.trans ?_
      exact Rule.here_bind_oneOf [Grammar.basicType, Grammar.mapType Grammar.type,
        Grammar.objectType Grammar.type, Grammar.foreignType]
  | _, .arraySuffix => by
      simp only [definition, rule_behind]
      rfl
  | _, .mapType => by
      simp only [definition, Phrase.rule, rule_behind, rule_between, bind_assoc, pure_bind]
      rfl
  | _, .objectType => by
      simp only [definition, Phrase.rule, rule_before, rule_braced]
      rfl
  | _, .statement => by
      refine Grammar.statement_eq.trans ?_
      have grouped := Rule.oneOf_append [Grammar.conditional Grammar.statement,
        Grammar.whileLoop Grammar.statement, Grammar.forLoop Grammar.statement]
        [Grammar.simpleStatement >>= fun simple => pure (.simple simple)]
      rwa [Rule.oneOf_single] at grouped
  | _, .compound => by
      simp only [definition, Phrase.rule]
      rw [← Rule.oneOf_cons]
      rfl
  | _, .simple => by
      simp only [definition, Phrase.rule, rule_before, bind_assoc, pure_bind]
      rfl
  | _, .small => by
      simp only [definition, Phrase.rule, rule_behind, bind_assoc, ← Rule.oneOf_cons]
      rfl
  | _, .letBinding => by
      simp only [definition, Phrase.rule, rule_behind, bind_assoc, pure_bind]
      rfl
  | _, .conditional => by
      simp only [definition, Phrase.rule, rule_behind, rule_between, bind_assoc, pure_bind]
      simp only [ruleOf, Grammar.conditional, Grammar.condition, bind_assoc, pure_bind]
      rfl
  | _, .branch => by
      simp only [definition, Phrase.rule, rule_braced]
      rfl
  | _, .whileLoop => by
      simp only [definition, Phrase.rule, rule_behind, rule_between, rule_braced, bind_assoc,
        pure_bind]
      simp only [ruleOf, Grammar.whileLoop, Grammar.condition, bind_assoc, pure_bind]
      rfl
  | _, .forLoop => by
      simp only [definition, Phrase.rule, rule_behind, rule_before, rule_between, rule_braced,
        bind_assoc, pure_bind]
      rfl
  | _, .expression => by
      simp only [definition, Phrase.rule, bind_assoc, pure_bind]
      refine Grammar.expression_eq.trans ?_
      refine bind_congr fun left => bind_congr fun operation => ?_
      rcases operation with _ | ⟨operator, right⟩ <;> rfl
  | _, .value => by
      simp only [definition, Phrase.rule, rule_between, bind_assoc, pure_bind, ← Rule.oneOf_cons]
      exact Rule.here_bind_oneOf [
        fun position => Grammar.integer >>= fun read => pure (.number position read),
        fun position => Grammar.string >>= fun read => pure (.string position read),
        fun position => Grammar.boolean >>= fun read => pure (.boolean position read),
        Grammar.call Grammar.expression,
        fun position => Rule.identifier .value >>= fun read => pure (.identifier position read),
        Grammar.enclosed Grammar.expression]
  | _, .call => by
      simp only [definition, Phrase.rule, rule_between, rule_separated, bind_assoc, pure_bind]
      rfl

end Definitions

end CollectionSchema.Peg
