import CollectionSchema.Proofs.Peg.Surroundings
import CollectionSchema.Proofs.Session
import Mathlib.Data.List.Chain

/-!
# Conditionals without an arm

An arm of a conditional is a block or a simple statement, and one that does not match
is absent.  What stands behind a conditional without any arm was tried as an arm, then,
and is none: so it can be no simple statement, and in its list of statements the
conditional is the last one, or a conditional or a loop follows.  Such a statement does
not become an arm; the grammar has it as a statement of its own.
-/

set_option autoImplicit false

namespace CollectionSchema

/-! ## Lists of statements -/

/-- Whether a statement is a conditional without any arm. -/
def Statement.isBareIf : Statement → Bool
  | .if _ _ thenBranch elseBranch => thenBranch.isAbsent && elseBranch.isAbsent
  | _ => false

/-- Whether a statement is a conditional or a loop. -/
def Statement.isCompound : Statement → Bool
  | .simple _ => false
  | _ => true

mutual

/-- The lists of statements inside a statement, at any depth. -/
def Statement.lists : Statement → List (List Statement)
  | .if _ _ thenBranch elseBranch => thenBranch.lists ++ elseBranch.lists
  | .while _ _ body => body :: statementsLists body
  | .for _ _ _ _ body => body :: statementsLists body
  | .simple _ => []

/-- The lists of statements inside an arm. -/
def Branch.lists : Branch → List (List Statement)
  | .block body => body :: statementsLists body
  | .simple _ => []
  | .absent => []

/-- The lists of statements inside the statements of a list. -/
def statementsLists : List Statement → List (List Statement)
  | [] => []
  | statement :: rest => statement.lists ++ statementsLists rest

end

/-- The lists of statements of a function: its body, and those inside it. -/
def Function.lists (function : Function) : List (List Statement) :=
  function.statements :: statementsLists function.statements

/-- The lists of statements of a part of a collection. -/
def Item.lists : Item → List (List Statement)
  | .function declared => declared.lists
  | _ => []

/-- The lists of statements of a declaration. -/
def Declaration.lists : Declaration → List (List Statement)
  | .collection declared => declared.items.flatMap Item.lists
  | .function declared => declared.lists

/-- All lists of statements of a program. -/
def Program.lists (program : Program) : List (List Statement) :=
  program.declarations.flatMap Declaration.lists

/-- What may follow a statement in a list: behind a conditional without any arm, only a conditional
or a loop. -/
def Statement.MayPrecede (first second : Statement) : Prop :=
  first.isBareIf = true → second.isCompound = true

/-- Every statement of these lists may precede the one behind it. -/
def InOrder (lists : List (List Statement)) : Prop :=
  ∀ statements ∈ lists, statements.IsChain Statement.MayPrecede

theorem inOrder_append {front behind : List (List Statement)} :
    InOrder (front ++ behind) ↔ InOrder front ∧ InOrder behind :=
  List.forall_mem_append

theorem inOrder_cons {statements : List Statement} {others : List (List Statement)} :
    InOrder (statements :: others) ↔
      statements.IsChain Statement.MayPrecede ∧ InOrder others :=
  List.forall_mem_cons

theorem inOrder_flatMap {α : Type} {items : List α} {lists : α → List (List Statement)} :
    InOrder (items.flatMap lists) ↔ ∀ item ∈ items, InOrder (lists item) := by
  simp only [InOrder, List.forall_mem_flatMap]

namespace Peg

/-! ## What the grammar meets -/

/-- A statement has the lists inside it in order, and behind a conditional without any arm there is
no simple statement. -/
structure StatementMeets (statement : Statement) (tokens : List Token) (taken : Nat) : Prop where
  inOrder : InOrder statement.lists
  behind : statement.isBareIf = true → Nonterminal.simple.Fails (tokens.drop taken)

/-- What holds of the values of the symbols and of the tokens from their first one on. -/
def Nonterminal.Keeps : {α : Type} → Nonterminal α → α → List Token → Nat → Prop
  | _, .statement, made, tokens, taken =>
      StatementMeets made tokens taken ∧ (made.isCompound = false → ¬ simple.Fails tokens)
  | _, .compound, made, tokens, taken
  | _, .conditional, made, tokens, taken
  | _, .whileLoop, made, tokens, taken
  | _, .forLoop, made, tokens, taken => StatementMeets made tokens taken ∧ made.isCompound = true
  | _, .branch, made, _, _ => made.isAbsent = false ∧ InOrder made.lists
  | _, .function, made, _, _ => InOrder made.lists
  | _, .item, made, _, _ => InOrder made.lists
  | _, .collection, made, _, _ => InOrder (made.items.flatMap Item.lists)
  | _, .declaration, made, _, _ => InOrder made.lists
  | _, _, _, _, _ => True

/-- The statements of a row are in order, with those inside them. -/
theorem inOrder_of_row {name : RuleName} {statements : List Statement} {tokens : List Token}
    {taken : Nat}
    (row : InRow ((Phrase.reference .statement).Meets Nonterminal.Keeps name) statements tokens
      taken) : InOrder (statements :: statementsLists statements) := by
  rw [inOrder_cons]
  induction row with
  | nil => exact ⟨.nil, nofun⟩
  | cons first others ih =>
      obtain ⟨_, meets, _⟩ := first
      rw [statementsLists, inOrder_append, List.isChain_cons]
      refine ⟨⟨?_, ih.1⟩, meets.inOrder, ih.2⟩
      intro next here bare
      cases others with
      | nil => cases here
      | cons second _ =>
          cases here
          obtain ⟨_, _, small⟩ := second
          rcases compound : next.isCompound with _ | _
          · exact absurd (meets.behind bare) (small compound)
          · rfl

theorem inOrder_of_braced {name : RuleName} {statements : List Statement} {tokens : List Token}
    {taken : Nat}
    (meets : (Phrase.braced (.reference .statement)).Meets Nonterminal.Keeps name statements tokens
      taken) : InOrder (statements :: statementsLists statements) := by
  obtain ⟨_, row⟩ := meets.of_braced
  exact inOrder_of_row row

/-- Where no arm matches there is no simple statement. -/
theorem simple_fails_of_branch {tokens : List Token} (fails : Nonterminal.branch.Fails tokens) :
    Nonterminal.simple.Fails tokens :=
  fails.of_choice.2.of_map.reference

/-- An arm that may be missing is either not there, and then it takes nothing and could not be
matched, or it is no missing one. -/
theorem keeps_of_optional {name : RuleName} {body : Phrase Branch} {arm : Option Branch}
    {tokens : List Token} {taken : Nat}
    (meets : (Phrase.optional body).Meets Nonterminal.Keeps name arm tokens taken)
    (present : ∀ branch, body.Meets Nonterminal.Keeps name branch tokens taken →
      branch.isAbsent = false ∧ InOrder branch.lists) :
    InOrder (arm.getD .absent).lists ∧
      ((arm.getD .absent).isAbsent = true → taken = 0 ∧ body.Fails name tokens) := by
  cases arm with
  | none => exact ⟨nofun, fun _ => meets⟩
  | some branch =>
      obtain ⟨there, inOrder⟩ := present branch meets
      refine ⟨inOrder, ?_⟩
      intro absent
      rw [Option.getD_some, there] at absent
      cases absent

/-- The phrase that defines a symbol makes only values of which this holds. -/
theorem definition_keeps {α : Type} (symbol : Nonterminal α) (made : α) (tokens : List Token)
    (taken : Nat)
    (meets : (definition symbol).Meets Nonterminal.Keeps symbol.name made tokens taken) :
    symbol.Keeps made tokens taken := by
  cases symbol with
  | declaration =>
      rcases meets with ⟨declared, rfl, _, keeps⟩ | ⟨_, declared, rfl, _, keeps⟩
      · exact keeps
      · exact keeps
  | collection =>
      obtain ⟨place, ⟨decorators, name, items⟩, rfl, _, _, rfl, _, inner⟩ := meets
      obtain ⟨_, rfl, _, _, rfl, _, braced⟩ := inner.of_behind
      obtain ⟨_, row⟩ := braced.of_braced
      apply inOrder_flatMap.mpr
      exact row.forall fun _ _ _ keeps => keeps.2
  | item =>
      rcases meets with ⟨declared, rfl, _⟩ | ⟨_, ⟨declared, rfl, _, keeps⟩ | ⟨_, declared, rfl, _⟩⟩
      · exact nofun
      · exact keeps
      · exact nofun
  | function =>
      obtain ⟨place, ⟨decorators, name, parameters, result, statements⟩, rfl, inner⟩ := meets
      obtain ⟨_, _, rfl, _, _, _, rfl, _, _, _, rfl, _, _, _, rfl, _, body⟩ := inner
      have inOrder := inOrder_of_braced body
      exact inOrder
  | statement =>
      rcases meets with ⟨_, keeps, compound⟩ | ⟨_, small, rfl, matched, _⟩
      · refine ⟨keeps, ?_⟩
        intro isSmall
        rw [compound] at isSmall
        cases isSmall
      · exact ⟨⟨nofun, nofun⟩, fun _ => matched.not_fails⟩
  | compound =>
      rcases meets with ⟨_, keeps⟩ | ⟨_, ⟨_, keeps⟩ | ⟨_, _, keeps⟩⟩
      · exact keeps
      · exact keeps
      · exact keeps
  | conditional =>
      obtain ⟨place, ⟨condition, thenBranch, elseBranch⟩, rfl, inner⟩ := meets
      obtain ⟨_, rfl, head, _, rfl, _, first, second, rfl, thenMeets, elseMeets⟩ := inner.of_behind
      obtain ⟨thenOrder, thenAbsent⟩ := keeps_of_optional thenMeets fun _ arm => arm.2
      obtain ⟨elseOrder, elseAbsent⟩ := keeps_of_optional elseMeets fun _ arm => by
        obtain ⟨_, _, _, keeps⟩ := arm.of_behind
        exact keeps
      refine ⟨⟨inOrder_append.mpr ⟨thenOrder, elseOrder⟩, ?_⟩, rfl⟩
      intro bare
      -- Neither arm takes a token, so what is no first arm stands behind the whole conditional.
      obtain ⟨noThen, noElse⟩ := Bool.and_eq_true_iff.mp bare
      obtain ⟨rfl, fails⟩ := thenAbsent noThen
      obtain ⟨rfl, _⟩ := elseAbsent noElse
      rw [List.drop_drop] at fails
      apply simple_fails_of_branch
      exact fails.reference
  | branch =>
      rcases meets with ⟨statements, rfl, body⟩ | ⟨_, small, rfl, _⟩
      · exact ⟨rfl, inOrder_of_braced body⟩
      · exact ⟨rfl, nofun⟩
  | whileLoop =>
      obtain ⟨place, ⟨condition, statements⟩, rfl, inner⟩ := meets
      obtain ⟨_, rfl, _, _, rfl, _, body⟩ := inner.of_behind
      exact ⟨⟨inOrder_of_braced body, nofun⟩, rfl⟩
  | forLoop =>
      obtain ⟨place, ⟨⟨init, condition, post⟩, statements⟩, rfl, inner⟩ := meets
      obtain ⟨_, rfl, _, _, rfl, _, body⟩ := inner.of_behind
      exact ⟨⟨inOrder_of_braced body, nofun⟩, rfl⟩
  | _ => exact True.intro

end Peg

/-! ## Programs -/

theorem inOrder_of_parse {tokens : List Token} {program : Program}
    (parsed : parse tokens = .ok program) : InOrder program.lists := by
  obtain ⟨misses, found, taken, run⟩ := ParseSession.exists_run tokens
  rcases more : ((ParseSession.ofTokens tokens).tokenAt taken).isEnd with _ | _
  · rw [ParseSession.parse_of_not_ended run more] at parsed
    cases parsed
  · rw [ParseSession.parse_of_ended run more] at parsed
    cases parsed
    have row := run.meets Peg.definition_keeps rfl
    apply inOrder_flatMap.mpr
    exact row.forall fun _ _ _ keeps => keeps.2

/-- In every list of statements of a program, in the bodies of functions and loops and in blocks at
any depth, a conditional without any arm is the last statement, or the one behind it is a
conditional or a loop, which without braces is no arm. -/
theorem absent_arms {tokens : List Token} {program : Program}
    (parsed : parse tokens = .ok program) :
    ∀ statements ∈ program.lists, ∀ front conditional behind,
      statements = front ++ conditional :: behind → conditional.isBareIf = true →
      behind = [] ∨ ∃ next later, behind = next :: later ∧ next.isCompound = true := by
  rintro statements member front conditional behind rfl bare
  have chain := (inOrder_of_parse parsed _ member).right_of_append
  rcases behind with _ | ⟨next, later⟩
  · exact .inl rfl
  · exact .inr ⟨next, later, rfl, (List.isChain_cons.mp chain).1 next rfl bare⟩

/-- The program of a function in which a loop stands behind a conditional without any arm. -/
theorem exists_loop_behind_conditional :
    ∃ tokens conditional loop,
      tokenize "function f() \x7b if (c) while (d) \x7b\x7d \x7d" = .ok tokens ∧
      parse tokens = .ok ⟨[.function ⟨⟨1, 1⟩, [], "f", [], none, [conditional, loop]⟩]⟩ ∧
      conditional.isBareIf = true := by
  let name := fun (column : Nat) (text : String) =>
    Expression.single ⟨1, column⟩ (.identifier ⟨1, column⟩ text)
  have made : tokenize "function f() \x7b if (c) while (d) \x7b\x7d \x7d" =
      .ok [⟨.identifier, "function", ⟨1, 1⟩⟩, ⟨.identifier, "f", ⟨1, 10⟩⟩, ⟨.symbol, "(", ⟨1, 11⟩⟩,
        ⟨.symbol, ")", ⟨1, 12⟩⟩, ⟨.symbol, "\x7b", ⟨1, 14⟩⟩, ⟨.identifier, "if", ⟨1, 16⟩⟩,
        ⟨.symbol, "(", ⟨1, 19⟩⟩, ⟨.identifier, "c", ⟨1, 20⟩⟩, ⟨.symbol, ")", ⟨1, 21⟩⟩,
        ⟨.identifier, "while", ⟨1, 23⟩⟩, ⟨.symbol, "(", ⟨1, 29⟩⟩, ⟨.identifier, "d", ⟨1, 30⟩⟩,
        ⟨.symbol, ")", ⟨1, 31⟩⟩, ⟨.symbol, "\x7b", ⟨1, 33⟩⟩, ⟨.symbol, "\x7d", ⟨1, 34⟩⟩,
        ⟨.symbol, "\x7d", ⟨1, 36⟩⟩, Token.endAt ⟨1, 37⟩] := by
    decide +kernel
  exact ⟨_, .if ⟨1, 16⟩ (name 20 "c") .absent .absent, .while ⟨1, 23⟩ (name 30 "d") [], made, rfl,
    rfl⟩

theorem absent_arms_of_loop :
    ∃ tokens program conditional loop, parse tokens = .ok program ∧
      [conditional, loop] ∈ program.lists ∧ conditional.isBareIf = true ∧
      ([loop] = [] ∨ ∃ next later, [loop] = next :: later ∧ next.isCompound = true) := by
  obtain ⟨tokens, conditional, loop, _, parsed, bare⟩ := exists_loop_behind_conditional
  have member : [conditional, loop] ∈ Program.lists
      ⟨[.function ⟨⟨1, 1⟩, [], "f", [], none, [conditional, loop]⟩]⟩ :=
    List.mem_cons_self
  exact ⟨tokens, _, conditional, loop, parsed, member, bare,
    absent_arms parsed _ member [] conditional [loop] rfl bare⟩

/-- A conditional without any arm need not be the last statement of its list. -/
theorem absent_arms_not_last :
    ¬ ∀ (source : String) (program : Program), parseText source = .ok program →
      ∀ statements ∈ program.lists, ∀ front conditional behind,
        statements = front ++ conditional :: behind → conditional.isBareIf = true →
        behind = [] := by
  intro last
  obtain ⟨tokens, conditional, loop, made, parsed, bare⟩ := exists_loop_behind_conditional
  have whole : parseText "function f() \x7b if (c) while (d) \x7b\x7d \x7d" =
      .ok ⟨[.function ⟨⟨1, 1⟩, [], "f", [], none, [conditional, loop]⟩]⟩ := by
    rw [parseText, made]
    exact parsed
  cases last _ _ whole [conditional, loop] List.mem_cons_self [] conditional [loop] rfl bare

end CollectionSchema
