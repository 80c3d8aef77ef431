import CollectionSchema.Proofs.Exchange
import CollectionSchema.Proofs.Peg.NameKeeping
import CollectionSchema.Proofs.Syntax.OneName

/-!
# Programs with another name

The words of the language are words where the grammar asks for them and names elsewhere.
So a declared name, or the argument of a decorator, can be any identifier at all: with
another one in its place the tokens are parsed to the program that has the other name
there and is the same everywhere else (`parse_name`).
-/

set_option autoImplicit false

namespace CollectionSchema

namespace Peg

open Phrase (behind before between braced separated)

variable {α β : Type}

/-- The values of a symbol with one name left open. -/
def Nonterminal.OneName : {α : Type} → Nonterminal α → (String → α) → Prop
  | _, .declaration => Declaration.OneName
  | _, .collection => Collection.OneName
  | _, .item => Item.OneName
  | _, .field => Field.OneName
  | _, .index => Index.OneName
  | _, .indexField => IndexField.OneName
  | _, .function => Function.OneName
  | _, .decorator => Decorator.OneName
  | _, .type | _, .mapType | _, .objectType => SchemaType.OneName
  | _, .statement | _, .compound | _, .conditional | _, .whileLoop | _, .forLoop =>
      Statement.OneName
  | _, .simple => SimpleStatement.OneName
  | _, .small => SmallStatement.OneName
  | _, .letBinding => Let.OneName
  | _, .branch => Branch.OneName
  | _, .arraySuffix | _, .expression | _, .value | _, .call => fun _ => False

section Names

variable {position : Position} {rest : List Token} {name : RuleName}

/-- The values of a phrase in which one name is left open. -/
def Phrase.OneName (position : Position) (rest : List Token) (name : RuleName) (phrase : Phrase α)
    (values : String → α) : Prop :=
  phrase.Varies (nameVariation position rest) Nonterminal.OneName name values

/-! ## One name in a phrase -/

namespace Phrase.OneName

theorem of_identifier {values : String → String}
    (one : (Phrase.token .identifier).OneName position rest name values) : values = id := one.2

theorem covers_of_token {terminal : Terminal α} {values : String → α}
    (one : (Phrase.token terminal).OneName position rest name values) :
    declaredNames.covers name (.token terminal) = true := by
  cases terminal with
  | identifier => exact Bool.and_eq_true _ _ |>.mpr ⟨one.1, rfl⟩
  | _ => cases one

theorem not_of_token {terminal : Terminal α} {values : String → α}
    (other : terminal.isIdentifier = false) :
    ¬ (Phrase.token terminal).OneName position rest name values := fun one =>
  absurd (Bool.and_eq_true _ _ |>.mp (covers_of_token one)).2 (Bool.eq_false_iff.mp other)

theorem of_located {build : Position → α → β} {body : Phrase α} {values : String → β}
    (one : (Phrase.located build body).OneName position rest name values) :
    ∃ place inner, values = (fun hole => build place (inner hole)) ∧
      body.OneName position rest name inner := by
  obtain ⟨front, inner, rfl, one⟩ := one
  -- The place of the first token is the same with every name.
  refine ⟨(nameVariation position rest).start front "", inner, ?_, one⟩
  rcases front with _ | ⟨_, _⟩ <;> rfl

theorem of_behind {terminal : Terminal Unit} {body : Phrase α} {values : String → α}
    (one : (behind terminal body).OneName position rest name values)
    (other : terminal.isIdentifier = false) : body.OneName position rest name values := by
  obtain ⟨_, rfl, ⟨_, _, rfl, marked⟩ | ⟨_, _, rfl, one⟩⟩ := one
  · exact absurd marked (not_of_token other)
  · exact one

theorem of_before {terminal : Terminal Unit} {body : Phrase α} {values : String → α}
    (one : (before body terminal).OneName position rest name values)
    (other : terminal.isIdentifier = false) : body.OneName position rest name values := by
  obtain ⟨_, rfl, ⟨_, _, rfl, one⟩ | ⟨_, _, rfl, marked⟩⟩ := one
  · exact one
  · exact absurd marked (not_of_token other)

theorem of_between {opening closing : Char} {body : Phrase α} {values : String → α}
    (one : (between opening closing body).OneName position rest name values) :
    body.OneName position rest name values :=
  (one.of_behind rfl).of_before rfl

theorem of_choice {first second : Phrase α} {values : String → α}
    (one : (Phrase.choice first second).OneName position rest name values) :
    first.OneName position rest name values ∨ second.OneName position rest name values :=
  one.resolve_left id

theorem of_many {body : Phrase α} {values : String → List α}
    (one : (Phrase.many body).OneName position rest name values) :
    ∃ front inner back, values = (fun hole => front ++ inner hole :: back) ∧
      body.OneName position rest name inner := one

theorem of_braced {body : Phrase α} {values : String → List α}
    (one : (braced body).OneName position rest name values) :
    ∃ front inner back, values = (fun hole => front ++ inner hole :: back) ∧
      body.OneName position rest name inner :=
  one.of_between.of_many

theorem of_separated {body : Phrase α} {values : String → List α}
    (one : (separated body).OneName position rest name values) :
    ∃ front inner back, values = (fun hole => front ++ inner hole :: back) ∧
      body.OneName position rest name inner := by
  obtain ⟨_, rfl, _, rfl, _, rfl, ⟨inner, back, rfl, one⟩ | ⟨first, _, rfl, others⟩⟩ := one
  · exact ⟨[], inner, back, rfl, one⟩
  · obtain ⟨front, inner, back, rfl, one⟩ := of_many others
    exact ⟨first :: front, inner, back, rfl, one.of_behind rfl⟩

/-- Where no name is declared, none is left open. -/
theorem not_of_silent {phrase : Phrase α} {values : String → α}
    (silent : phrase.silent declaredNames Nonterminal.namesNothing name = true) :
    ¬ phrase.OneName position rest name values := by
  intro one
  induction phrase with
  | token terminal =>
      rw [Phrase.silent, covers_of_token one] at silent
      cases silent
  | reference symbol => cases symbol <;> first | exact one | cases silent
  | sequence first second ihFirst ihSecond =>
      obtain ⟨silentFirst, silentSecond⟩ := Bool.and_eq_true _ _ |>.mp silent
      rcases one with ⟨_, _, rfl, one⟩ | ⟨_, _, rfl, one⟩
      · exact ihFirst silentFirst one
      · exact ihSecond silentSecond one
  | choice first second ihFirst ihSecond =>
      obtain ⟨_, parts⟩ := Bool.and_eq_true _ _ |>.mp silent
      obtain ⟨silentFirst, silentSecond⟩ := Bool.and_eq_true _ _ |>.mp parts
      rcases one.of_choice with one | one
      · exact ihFirst silentFirst one
      · exact ihSecond silentSecond one
  | many body ih =>
      obtain ⟨_, _, _, rfl, one⟩ := one
      exact ih silent one
  | optional _ ih | map _ _ ih =>
      obtain ⟨_, rfl, one⟩ := one
      exact ih silent one
  | flagged _ _ ih | operation _ ih | located _ _ ih =>
      obtain ⟨_, _, rfl, one⟩ := one
      exact ih silent one

end Phrase.OneName

open Phrase.OneName

/-! ## One name in a part of a program -/

/-! ### Types and fields -/

theorem decorator_oneName {values : String → Decorator}
    (one : (definition .decorator).OneName position rest Nonterminal.decorator.name values) :
    Decorator.OneName values := by
  obtain ⟨_, _, rfl, parts⟩ := one.of_located
  rcases of_behind parts rfl with ⟨_, _, rfl, none⟩ | ⟨_, _, rfl, _, rfl, argument⟩
  · cases none
  · obtain rfl := of_identifier (of_between argument)
    exact .argument

theorem field_oneName {values : String → Field}
    (one : (definition .field).OneName position rest Nonterminal.field.name values) :
    Field.OneName values := by
  obtain ⟨_, _, rfl, parts⟩ := one.of_located
  rcases parts with ⟨_, ⟨_, _, _⟩, rfl, decorators⟩ | ⟨_, _, rfl, behindDecorators⟩
  · obtain ⟨_, _, _, rfl, decorator⟩ := of_many decorators
    exact .decorator decorator
  rcases behindDecorators with ⟨_, ⟨_, _⟩, rfl, named⟩ | ⟨_, _, rfl, _, _, rfl, typed⟩
  · obtain rfl := of_identifier named
    exact .name
  · exact .type (of_behind typed rfl)

theorem type_oneName {values : String → SchemaType}
    (one : (definition .type).OneName position rest Nonterminal.type.name values) :
    SchemaType.OneName values := by
  rcases one.of_choice with basic | others
  · obtain ⟨_, _, rfl, parts⟩ := of_located basic
    rcases parts with ⟨_, _, rfl, none⟩ | ⟨_, _, rfl, _, rfl, none⟩
    · cases none
    · cases none
  rcases others.of_choice with map | others
  · exact map
  rcases others.of_choice with object | foreign
  · exact object
  · obtain ⟨_, _, rfl, none⟩ := of_located foreign
    cases none.1

theorem mapType_oneName {values : String → SchemaType}
    (one : (definition .mapType).OneName position rest Nonterminal.mapType.name values) :
    SchemaType.OneName values := by
  obtain ⟨_, _, rfl, parts⟩ := one.of_located
  rcases of_between (of_behind parts rfl) with ⟨_, _, rfl, none⟩ | ⟨_, _, rfl, value⟩
  · cases none
  · exact .value (of_behind value rfl)

theorem objectType_oneName {values : String → SchemaType}
    (one : (definition .objectType).OneName position rest Nonterminal.objectType.name values) :
    SchemaType.OneName values := by
  obtain ⟨_, _, rfl, parts⟩ := one.of_located
  obtain ⟨_, _, _, rfl, member⟩ := of_braced parts
  exact .member (of_before member rfl)

/-! ### Statements -/

theorem letBinding_oneName {values : String → Let}
    (one : (definition .letBinding).OneName position rest Nonterminal.letBinding.name values) :
    Let.OneName values := by
  obtain ⟨_, _, rfl, parts⟩ := one.of_located
  rcases of_behind parts rfl with ⟨_, _, rfl, named⟩ | ⟨_, _, rfl, value⟩
  · obtain rfl := of_identifier named
    exact .name
  · cases of_behind value rfl

theorem small_oneName {values : String → SmallStatement}
    (one : (definition .small).OneName position rest Nonterminal.small.name values) :
    SmallStatement.OneName values := by
  rcases one.of_choice with ⟨_, rfl, none⟩ | others
  · cases none
  rcases others.of_choice with ⟨_, rfl, returned⟩ | others
  · cases of_behind returned rfl
  rcases others.of_choice with ⟨_, rfl, thrown⟩ | others
  · cases of_behind thrown rfl
  rcases others.of_choice with ⟨_, rfl, binding⟩ | ⟨_, rfl, none⟩
  · exact .binding binding
  · cases none

theorem simple_oneName {values : String → SimpleStatement}
    (one : (definition .simple).OneName position rest Nonterminal.simple.name values) :
    SimpleStatement.OneName values := by
  obtain ⟨_, _, rfl, small⟩ := one.of_located
  exact .small (of_before small rfl)

theorem statement_oneName {values : String → Statement}
    (one : (definition .statement).OneName position rest Nonterminal.statement.name values) :
    Statement.OneName values := by
  rcases one.of_choice with compound | ⟨_, rfl, simple⟩
  · exact compound
  · exact .simple simple

theorem compound_oneName {values : String → Statement}
    (one : (definition .compound).OneName position rest Nonterminal.compound.name values) :
    Statement.OneName values := by
  rcases one.of_choice with conditional | others
  · exact conditional
  rcases others.of_choice with whileLoop | forLoop
  · exact whileLoop
  · exact forLoop

theorem conditional_oneName {values : String → Statement}
    (one : (definition .conditional).OneName position rest Nonterminal.conditional.name values) :
    Statement.OneName values := by
  obtain ⟨_, _, rfl, parts⟩ := one.of_located
  rcases of_behind parts rfl with ⟨_, _, rfl, condition⟩ | ⟨_, _, rfl, branches⟩
  · cases of_between condition
  rcases branches with ⟨_, _, rfl, _, rfl, thenBranch⟩ | ⟨_, _, rfl, _, rfl, elseBranch⟩
  · exact .thenBranch thenBranch
  · exact .elseBranch (of_behind elseBranch rfl)

theorem branch_oneName {values : String → Branch}
    (one : (definition .branch).OneName position rest Nonterminal.branch.name values) :
    Branch.OneName values := by
  rcases one.of_choice with ⟨_, rfl, block⟩ | ⟨_, rfl, simple⟩
  · obtain ⟨_, _, _, rfl, statement⟩ := of_braced block
    exact .block statement
  · exact .simple simple

theorem whileLoop_oneName {values : String → Statement}
    (one : (definition .whileLoop).OneName position rest Nonterminal.whileLoop.name values) :
    Statement.OneName values := by
  obtain ⟨_, _, rfl, parts⟩ := one.of_located
  rcases of_behind parts rfl with ⟨_, _, rfl, condition⟩ | ⟨_, _, rfl, body⟩
  · cases of_between condition
  · obtain ⟨_, _, _, rfl, statement⟩ := of_braced body
    exact .whileBody statement

theorem forLoop_oneName {values : String → Statement}
    (one : (definition .forLoop).OneName position rest Nonterminal.forLoop.name values) :
    Statement.OneName values := by
  obtain ⟨_, _, rfl, parts⟩ := one.of_located
  rcases of_behind parts rfl with ⟨_, _, rfl, clauses⟩ | ⟨_, _, rfl, body⟩
  · rcases of_between clauses with ⟨_, ⟨_, _⟩, rfl, init⟩ | ⟨_, _, rfl, others⟩
    · rcases of_choice (of_before init rfl) with ⟨_, rfl, binding⟩ | ⟨_, rfl, none⟩
      · exact .forInit (.binding binding)
      · cases none
    · rcases others with ⟨_, _, rfl, condition⟩ | ⟨_, _, rfl, none⟩
      · cases of_before condition rfl
      · cases none
  · obtain ⟨_, _, _, rfl, statement⟩ := of_braced body
    exact .forBody statement

/-! ### Declarations -/

theorem indexField_oneName {values : String → IndexField}
    (one : (definition .indexField).OneName position rest Nonterminal.indexField.name values) :
    IndexField.OneName values := by
  rcases one.of_choice with ordered | plain
  · obtain ⟨_, _, rfl, parts⟩ := of_located ordered
    rcases of_between parts with ⟨_, _, rfl, named⟩ | ⟨_, _, rfl, order⟩
    · obtain rfl := of_identifier named
      exact .name
    · cases of_behind order rfl
  · obtain ⟨_, _, rfl, named⟩ := of_located plain
    obtain rfl := of_identifier named
    exact .name

theorem index_oneName {values : String → Index}
    (one : (definition .index).OneName position rest Nonterminal.index.name values) :
    Index.OneName values := by
  obtain ⟨_, _, rfl, parts⟩ := one.of_located
  rcases of_behind parts rfl with ⟨_, _, rfl, none⟩ | ⟨_, _, rfl, fields⟩
  · cases none
  · obtain ⟨_, _, _, rfl, field⟩ := of_separated (of_between fields)
    exact .field field

theorem function_oneName {values : String → Function}
    (one : (definition .function).OneName position rest Nonterminal.function.name values) :
    Function.OneName values := by
  obtain ⟨_, _, rfl, parts⟩ := one.of_located
  rcases parts with ⟨_, ⟨_, _, _, _⟩, rfl, decorators⟩ | ⟨_, _, rfl, behindDecorators⟩
  · obtain ⟨_, _, _, rfl, decorator⟩ := of_many decorators
    exact .decorator decorator
  rcases behindDecorators with ⟨_, ⟨_, _, _⟩, rfl, named⟩ | ⟨_, _, rfl, behindName⟩
  · rcases of_choice named with behindWord | named
    · obtain rfl := of_identifier (of_behind behindWord rfl)
      exact .name
    · obtain rfl := of_identifier named
      exact .name
  rcases behindName with ⟨_, ⟨_, _⟩, rfl, parameters⟩ | ⟨_, _, rfl, behindParameters⟩
  · obtain ⟨_, _, _, rfl, parameter⟩ := of_separated (of_between parameters)
    exact .parameter parameter
  rcases behindParameters with ⟨_, _, rfl, _, rfl, result⟩ | ⟨_, _, rfl, statements⟩
  · exact .result (of_behind result rfl)
  · obtain ⟨_, _, _, rfl, statement⟩ := of_braced statements
    exact .statement statement

theorem item_oneName {values : String → Item}
    (one : (definition .item).OneName position rest Nonterminal.item.name values) :
    Item.OneName values := by
  rcases one.of_choice with ⟨_, rfl, field⟩ | others
  · exact .field (of_before field rfl)
  rcases others.of_choice with ⟨_, rfl, function⟩ | ⟨_, rfl, index⟩
  · exact .function function
  · exact .index (of_before index rfl)

theorem collection_oneName {values : String → Collection}
    (one : (definition .collection).OneName position rest Nonterminal.collection.name values) :
    Collection.OneName values := by
  obtain ⟨_, _, rfl, parts⟩ := one.of_located
  rcases parts with ⟨_, ⟨_, _⟩, rfl, decorators⟩ | ⟨_, _, rfl, behindDecorators⟩
  · obtain ⟨_, _, _, rfl, decorator⟩ := of_many decorators
    exact .decorator decorator
  rcases of_behind behindDecorators rfl with ⟨_, _, rfl, named⟩ | ⟨_, _, rfl, items⟩
  · obtain rfl := of_identifier named
    exact .name
  · obtain ⟨_, _, _, rfl, item⟩ := of_braced items
    exact .item item

theorem declaration_oneName {values : String → Declaration}
    (one : (definition .declaration).OneName position rest Nonterminal.declaration.name values) :
    Declaration.OneName values := by
  rcases one.of_choice with ⟨_, rfl, collection⟩ | ⟨_, rfl, function⟩
  · exact .collection collection
  · exact .function function

/-- With one name left open in its definition, a symbol has one name left open. -/
theorem definition_oneName (symbol : Nonterminal α) (values : String → α)
    (one : (definition symbol).OneName position rest symbol.name values) :
    symbol.OneName values := by
  cases symbol with
  | declaration => exact declaration_oneName one
  | collection => exact collection_oneName one
  | item => exact item_oneName one
  | field => exact field_oneName one
  | index => exact index_oneName one
  | indexField => exact indexField_oneName one
  | function => exact function_oneName one
  | decorator => exact decorator_oneName one
  | type => exact type_oneName one
  | mapType => exact mapType_oneName one
  | objectType => exact objectType_oneName one
  | statement => exact statement_oneName one
  | compound => exact compound_oneName one
  | simple => exact simple_oneName one
  | small => exact small_oneName one
  | letBinding => exact letBinding_oneName one
  | conditional => exact conditional_oneName one
  | branch => exact branch_oneName one
  | whileLoop => exact whileLoop_oneName one
  | forLoop => exact forLoop_oneName one
  | arraySuffix | expression | value | call =>
      exact absurd one (not_of_silent (declaredNames_silent _ rfl))

end Names

end Peg

/-! ## Programs -/

open Peg

/-- Behind so many tokens of a program stands a name that it declares, or the argument of a
decorator. -/
def NameAt (tokens : List Token) (place : Nat) : Prop :=
  ∃ found more, Occurs declaredNames .program declarations (closed tokens) found place 1 more

/-- What closes some tokens does not depend on the name that they begin with. -/
theorem exists_closed_name (position : Position) (others : List Token) :
    ∃ rest, ∀ name, closed (⟨.identifier, name, position⟩ :: others) =
      ⟨.identifier, name, position⟩ :: rest := by
  rcases others with _ | ⟨second, others⟩
  · exact ⟨[Token.endAt position], fun _ => rfl⟩
  · exact ⟨closed (second :: others), fun _ => closed_append_of_ne_nil [_] (List.cons_ne_nil _ _)⟩

/-- Every identifier can stand for a declared name, or for the argument of a decorator: with it the
tokens make the same program but for this one name. -/
theorem parse_name {tokens : List Token} {program : Program} {place : Nat}
    (parsed : parse tokens = .ok program) (named : NameAt tokens place) :
    ∃ token made, tokens[place]? = some token ∧ token.kind = .identifier ∧ Program.OneName made ∧
      program = made token.lexeme ∧ ∀ name,
        parse (tokens.set place { token with lexeme := name }) = .ok (made name) := by
  obtain ⟨found, more, part⟩ := named
  obtain ⟨_, _, _, _, marked, reads⟩ := part.marked
  obtain ⟨_, token, _, same, kind⟩ :=
    Phrase.token_of_isIdentifier (Bool.and_eq_true _ _ |>.mp marked).2 reads
  obtain ⟨front, others, rfl, rfl⟩ := split_of_closed [token] (List.cons_ne_nil _ _) same
    (by simp [Token.isEnd, kind])
  obtain ⟨_, here, position⟩ := token
  obtain rfl : _ = TokenKind.identifier := kind
  obtain ⟨rest, closes⟩ := exists_closed_name position others
  have closed : ∀ name, closed (front ++ ⟨.identifier, name, position⟩ :: others) =
      front ++ (nameVariation position rest).lists name := fun name =>
    (closed_append_of_ne_nil front (List.cons_ne_nil _ _)).trans (congrArg _ (closes name))
  obtain ⟨values, rfl, one, parses⟩ :=
    ParseSession.parse_vary declaredNames_kept definition_oneName parsed part (closed here) closed
  obtain ⟨_, _, _, rfl, declaration⟩ := Phrase.OneName.of_many one
  refine ⟨⟨.identifier, here, position⟩, _, by simp, rfl, .declaration declaration, rfl,
    fun name => ?_⟩
  rw [← parses name]
  simp

/-- Tokens that write a collection without items. -/
def collectionTokens (name : String) : List Token :=
  [⟨.identifier, "collection", ⟨1, 1⟩⟩, ⟨.identifier, name, ⟨1, 12⟩⟩, ⟨.symbol, "\x7b", ⟨1, 20⟩⟩,
    ⟨.symbol, "\x7d", ⟨1, 21⟩⟩]

/-- Every identifier can be the name of a collection, the keywords among them. -/
theorem parse_name_of_collection :
    ∃ made, Program.OneName made ∧
      made "Account" = ⟨[.collection ⟨⟨1, 1⟩, [], "Account", []⟩]⟩ ∧
      ∀ name, parse (collectionTokens name) = .ok (made name) := by
  let tokens := closed (collectionTokens "Account")
  have decorators : (Phrase.many (.reference .decorator)).Reads .collection tokens [] 0 :=
    .of_rule rfl rfl
  have items : (Phrase.braced (.reference .item)).Reads .collection (tokens.drop 2) [] 2 :=
    .of_rule rfl rfl
  have others : declarations.Reads .program (tokens.drop 4) [] 0 := .of_rule rfl rfl
  have named : NameAt (collectionTokens "Account") 1 :=
    ⟨_, _, .manyFirst rfl (.reference (.choiceFirst (.map (.reference (.located rfl
      (.second decorators (.map (.second (.token rfl) (.first (.token rfl rfl) items)))))))))
      others⟩
  obtain ⟨token, made, here, _, one, same, parses⟩ := parse_name rfl named
  obtain rfl := Option.some.inj here
  exact ⟨made, one, same.symm, parses⟩

end CollectionSchema
