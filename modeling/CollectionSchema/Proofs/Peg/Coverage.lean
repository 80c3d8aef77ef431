import CollectionSchema.Proofs.Peg.Composition
import CollectionSchema.Proofs.Syntax.Tree

/-!
# Matches and trees

The trees of what a match builds cover the tokens that the match takes.  Each form
of phrase puts the trees of its parts in a row or makes a part of them
(`Phrase.Covered`), and the phrase that defines a symbol covers the trees of what
the symbol builds (`definition_covered`).
-/

set_option autoImplicit false

namespace CollectionSchema.Peg

open SyntaxTree (mark word between braced separated)

variable {α β : Type}

/-- The trees of the values of a symbol. -/
def Nonterminal.trees : {α : Type} → Nonterminal α → α → List SyntaxTree
  | _, .declaration => fun declaration => [declaration.tree]
  | _, .collection => fun collection => [collection.tree]
  | _, .item => Item.trees
  | _, .field => fun field => [field.tree]
  | _, .index => fun index => [index.tree]
  | _, .indexField => fun field => [field.tree]
  | _, .function => fun function => [function.tree]
  | _, .decorator => fun decorator => [decorator.tree]
  | _, .type | _, .mapType | _, .objectType => fun type => [type.tree]
  | _, .arraySuffix => fun _ => [mark '[', mark ']']
  | _, .statement | _, .compound | _, .conditional | _, .whileLoop | _, .forLoop =>
      fun statement => [statement.tree]
  | _, .simple => fun statement => [statement.tree]
  | _, .small => SmallStatement.trees
  | _, .letBinding => fun binding => [binding.tree]
  | _, .branch => Branch.trees
  | _, .expression => fun expression => [expression.tree]
  | _, .value | _, .call => fun value => [value.tree]

/-- The tokens of which a phrase makes a value are covered by these trees of the value, if that is
so for the symbols in it. -/
def Phrase.Covered (phrase : Phrase α) (trees : α → List SyntaxTree) : Prop :=
  ∀ value tokens,
    phrase.Made (fun symbol part piece => Covers (symbol.trees part) piece) value tokens →
      Covers (trees value) tokens

namespace Phrase.Covered

variable {phrase body first second : Phrase α} {trees inner : α → List SyntaxTree}

theorem weaken (covered : phrase.Covered inner)
    (same : ∀ value tokens, Covers (inner value) tokens → Covers (trees value) tokens) :
    phrase.Covered trees :=
  fun value tokens made => same value tokens (covered value tokens made)

theorem token (terminal : Terminal α) :
    (Phrase.token terminal).Covered fun value => [.leaf (terminal.sign value)] := by
  rintro value _ ⟨token, rfl, read⟩
  exact .single (Terminal.writtenAs_of_read read)

theorem reference (symbol : Nonterminal α) : (Phrase.reference symbol).Covered symbol.trees :=
  fun _ _ made => made.2

theorem sequence {second : Phrase β} {others : β → List SyntaxTree} (left : first.Covered trees)
    (right : second.Covered others) :
    (Phrase.sequence first second).Covered fun value => trees value.1 ++ others value.2 := by
  rintro value _ ⟨front, behind, rfl, madeFirst, madeSecond⟩
  exact (left _ _ madeFirst).append (right _ _ madeSecond)

theorem choice (left : first.Covered trees) (right : second.Covered trees) :
    (Phrase.choice first second).Covered trees := by
  rintro value tokens (made | made)
  · exact left value tokens made
  · exact right value tokens made

theorem optional (covered : body.Covered inner) :
    (Phrase.optional body).Covered fun value => value.elim [] inner := by
  rintro (_ | value) tokens made
  · cases made
    exact .nil
  · exact covered value tokens made

theorem many (covered : body.Covered inner) :
    (Phrase.many body).Covered fun items => items.flatMap inner := by
  rintro items _ ⟨pieces, made, rfl⟩
  induction made with
  | nil => exact .nil
  | cons here _ ih => exact (covered _ _ here).append ih

/-- A repetition of a phrase that makes single trees. -/
theorem row (tree : α → SyntaxTree) (covered : body.Covered fun value => [tree value]) :
    (Phrase.many body).Covered fun items => items.map tree :=
  weaken (many covered) fun _ _ covers => by rwa [← List.map_eq_flatMap] at covers

theorem flagged {character : Char} (covered : body.Covered inner) :
    (Phrase.flagged character body).Covered fun value =>
      (if value.1 then [mark character] else []) ++ inner value.2 := by
  rintro ⟨flag, value⟩ tokens (⟨rfl, made⟩ | ⟨token, rest, rfl, is, rfl, made⟩)
  · exact covered value tokens made
  · exact .leaf (.mark is) (covered value rest made)

theorem operation (covered : body.Covered inner) :
    (Phrase.operation body).Covered fun value =>
      .leaf (.operator value.1) :: inner value.2 := by
  rintro value _ ⟨front, behind, rfl, spelled, made⟩
  exact .leaf spelled (covered _ _ made)

theorem map {build : α → β} {others : β → List SyntaxTree} (covered : body.Covered inner)
    (same : ∀ value, others (build value) = inner value) :
    (Phrase.map build body).Covered others := by
  rintro _ tokens ⟨value, rfl, made⟩
  rw [same]
  exact covered value tokens made

/-- What a located phrase builds is a part, and its place is the place of its first token. -/
theorem located {build : Position → α → β} {others : β → List SyntaxTree}
    (covered : body.Covered inner)
    (same : ∀ place value, others (build place value) = [.part place (inner value)]) :
    (Phrase.located build body).Covered others := by
  rintro _ _ ⟨first, rest, value, rfl, rfl, made⟩
  rw [same]
  exact .whole (covered value _ made)

/-! ### Words and marks around a phrase -/

theorem behind {terminal : Terminal Unit} (covered : body.Covered inner) :
    (Phrase.behind terminal body).Covered fun value =>
      .leaf (terminal.sign ()) :: inner value :=
  map (sequence (token terminal) covered) fun _ => rfl

theorem before {terminal : Terminal Unit} (covered : body.Covered inner) :
    (Phrase.before body terminal).Covered fun value =>
      inner value ++ [.leaf (terminal.sign ())] :=
  map (sequence covered (token terminal)) fun _ => rfl

theorem between {opening closing : Char} (covered : body.Covered inner) :
    (Phrase.between opening closing body).Covered fun value =>
      SyntaxTree.between opening closing (inner value) :=
  behind (before covered)

theorem braced (covered : body.Covered inner) :
    (Phrase.braced body).Covered fun items => SyntaxTree.braced (items.flatMap inner) :=
  between (many covered)

theorem separated (covered : body.Covered inner) :
    (Phrase.separated body).Covered fun items => SyntaxTree.separated (items.map inner) := by
  let several : List α → List SyntaxTree := fun items => SyntaxTree.separated (items.map inner)
  refine Covered.map (@optional _ _ several ?_) ?_
  · refine map (sequence covered (many (behind covered))) fun items => ?_
    obtain ⟨item, others⟩ := items
    simp only [several, List.map_cons, SyntaxTree.separated]
    induction others generalizing item with
    | nil => simp
    | cons next rest ih =>
        rw [List.map_cons, List.intercalate_cons_cons, ih, List.flatMap_cons, List.append_assoc]
        rfl
  · rintro (_ | items)
    · rfl
    · rfl

end Phrase.Covered

/-! ## The definitions of the symbols -/

/-- A word that may be missing can be there. -/
theorem covers_given {spelling : String} {trees : List SyntaxTree} {tokens : List Token}
    (covers : Covers (word spelling :: trees) tokens) :
    Covers (.leaf (.optionalWord spelling) :: trees) tokens := by
  cases covers with
  | leaf first others =>
      cases first with
      | word is => exact .leaf (.given is) others

section Signs

variable {signs : List Sign} {tokens : List Token}

theorem exists_of_spells_mark {character : Char}
    (spells : Spells (.mark character :: signs) tokens) :
    ∃ token rest, tokens = token :: rest ∧ token.isSymbol character = true ∧
      Spells signs rest := by
  cases spells with
  | cons first rest =>
      cases first with
      | mark is => exact ⟨_, _, rfl, is, rest⟩

theorem exists_of_spells_word {spelling : String}
    (spells : Spells (.word spelling :: signs) tokens) :
    ∃ token rest, tokens = token :: rest ∧ token.isWord spelling = true ∧ Spells signs rest := by
  cases spells with
  | cons first rest =>
      cases first with
      | word is => exact ⟨_, _, rfl, is, rest⟩

/-- The order of an ascending field can be stated. -/
theorem writtenAs_stated {name : String}
    (spells : Spells (Sign.between '[' ']' [.word name, .mark ',', .word "asc"]) tokens) :
    (Sign.ascending name).WrittenAs tokens := by
  obtain ⟨opening, _, rfl, opens, spells⟩ := exists_of_spells_mark spells
  obtain ⟨token, _, rfl, is, spells⟩ := exists_of_spells_word spells
  obtain ⟨comma, _, rfl, separates, spells⟩ := exists_of_spells_mark spells
  obtain ⟨order, _, rfl, orders, spells⟩ := exists_of_spells_word spells
  obtain ⟨closing, _, rfl, closes, spells⟩ := exists_of_spells_mark spells
  cases spells
  exact .stated opens is separates orders closes

end Signs

/-- The place of a value is the place of its first token. -/
theorem exists_first_of_value {value : Value} {tokens : List Token}
    (covers : Covers [value.tree] tokens) :
    ∃ first inside, tokens = first :: inside ∧ first.position = value.position := by
  obtain ⟨pieces, same⟩ : ∃ pieces, value.tree = .part value.position pieces := by
    cases value <;> exact ⟨_, by rw [Value.tree, Value.position]⟩
  rw [same] at covers
  exact covers.exists_first

section Definitions

open Phrase.Covered

/-! ### Types and fields -/

theorem decorator_covered : (definition .decorator).Covered fun decorator => [decorator.tree] := by
  refine located (behind (sequence (token _) (optional (between (token _))))) fun _ value => ?_
  rcases value with ⟨_, _ | _⟩ <;> rfl

theorem field_covered : (definition .field).Covered fun field => [field.tree] := by
  refine located (sequence (row Decorator.tree (reference _)) (sequence (token _) (flagged
    (behind (reference _))))) fun _ _ => ?_
  simp only [Field.tree]
  rfl

theorem type_covered : (definition .type).Covered fun type => [type.tree] := by
  refine choice (located (sequence (token _) (optional (reference _))) fun _ value => ?_)
    (choice (reference _) (choice (reference _) (located (token _) fun _ _ => ?_)))
  · rcases value with ⟨_, _ | _⟩ <;>
      simp only [SchemaType.tree] <;> rfl
  · simp only [SchemaType.tree]
    rfl

theorem arraySuffix_covered : (definition .arraySuffix).Covered fun _ => [mark '[', mark ']'] :=
  behind (token _)

theorem mapType_covered : (definition .mapType).Covered fun type => [type.tree] := by
  refine located (behind (between (sequence (token _) (behind (reference _))))) fun _ _ => ?_
  simp only [SchemaType.tree]
  rfl

theorem objectType_covered : (definition .objectType).Covered fun type => [type.tree] := by
  refine located (braced (before (reference _))) fun _ _ => ?_
  simp only [SchemaType.tree, fieldsTrees_eq_flatMap]
  rfl

/-! ### Values and expressions -/

theorem value_covered : (definition .value).Covered fun value => [value.tree] := by
  refine choice (located (token _) fun _ _ => ?_) (choice (located (token _) fun _ _ => ?_)
    (choice (located (token _) fun _ _ => ?_) (choice (reference _)
      (choice (located (token _) fun _ _ => ?_)
        (located (between (reference _)) fun _ _ => ?_))))) <;>
    simp only [Value.tree] <;> rfl

theorem call_covered : (definition .call).Covered fun value => [value.tree] := by
  refine located (sequence (token _) (between (separated (reference _)))) fun _ _ => ?_
  simp only [Value.tree, argumentsTrees_eq_map]
  rfl

theorem expression_covered :
    (definition .expression).Covered fun expression => [expression.tree] := by
  -- An expression has the place of its first value, which is that of its first token.
  rintro _ _ ⟨⟨left, operands⟩, rfl, made⟩
  have covers := sequence (reference _) (optional (operation (reference _))) _ _ made
  obtain ⟨front, behind, rfl, ⟨_, first⟩, _⟩ := made
  obtain ⟨token, inside, rfl, place⟩ := exists_first_of_value first
  rcases operands with _ | ⟨operator, right⟩ <;>
    simp only [Expression.tree, ← place] <;> exact .whole covers

/-! ### Statements -/

theorem letBinding_covered : (definition .letBinding).Covered fun binding => [binding.tree] :=
  located (behind (sequence (token _) (behind (reference _)))) fun _ _ => rfl

theorem small_covered : (definition .small).Covered SmallStatement.trees :=
  choice (map (token _) fun _ => rfl) (choice (map (behind (reference _)) fun _ => rfl)
    (choice (map (behind (reference _)) fun _ => rfl) (choice (map (reference _) fun _ => rfl)
      (map (reference _) fun _ => rfl))))

theorem simple_covered : (definition .simple).Covered fun statement => [statement.tree] :=
  located (before (reference _)) fun _ _ => rfl

theorem statement_covered : (definition .statement).Covered fun statement => [statement.tree] := by
  refine choice (reference _) (map (reference _) fun _ => ?_)
  simp only [Statement.tree]
  rfl

theorem compound_covered : (definition .compound).Covered fun statement => [statement.tree] :=
  choice (reference _) (choice (reference _) (reference _))

theorem conditional_covered :
    (definition .conditional).Covered fun statement => [statement.tree] := by
  -- An arm behind the second word is there, so this word is among the trees.
  have arm : (Phrase.behind (.word "else") (.reference .branch)).Covered fun branch =>
      if branch.isAbsent then [] else word "else" :: branch.trees := by
    rintro _ tokens ⟨⟨_, branch⟩, rfl, made⟩
    have covers := sequence (token _) (reference _) _ _ made
    obtain ⟨_, _, _, _, present, _⟩ := made
    simp only [show branch.isAbsent = false from present]
    exact covers
  refine located (behind (sequence (between (reference _)) (sequence (optional (reference _))
    (optional arm)))) fun _ value => ?_
  rcases value with ⟨_, _ | _, _ | _⟩ <;>
    simp only [Statement.tree, Branch.trees, Option.getD_none, Option.getD_some] <;> rfl

theorem branch_covered : (definition .branch).Covered Branch.trees := by
  refine choice (map (between (row Statement.tree (reference _))) fun _ => ?_)
    (map (reference _) fun _ => ?_)
  · simp only [Branch.trees, statementsTrees_eq_map]
    rfl
  · simp only [Branch.trees]
    rfl

theorem whileLoop_covered : (definition .whileLoop).Covered fun statement => [statement.tree] := by
  refine located (behind (sequence (between (reference _))
    (between (row Statement.tree (reference _))))) fun _ _ => ?_
  simp only [Statement.tree, statementsTrees_eq_map]
  rfl

theorem forLoop_covered : (definition .forLoop).Covered fun statement => [statement.tree] := by
  have init : (Phrase.choice (.map ForInit.let (.reference .letBinding))
      (.map ForInit.expression (.reference .expression))).Covered fun init => [init.tree] :=
    choice (map (reference _) fun _ => rfl) (map (reference _) fun _ => rfl)
  refine located (behind (sequence (between (sequence (before init)
    (sequence (before (reference _)) (reference _))))
      (between (row Statement.tree (reference _))))) fun _ _ => ?_
  simp only [Statement.tree, statementsTrees_eq_map]
  rfl

/-! ### Declarations -/

theorem indexField_covered : (definition .indexField).Covered fun field => [field.tree] := by
  refine choice ?_ ?_
  · rintro _ _ ⟨first, rest, ⟨name, order⟩, rfl, rfl, made⟩
    have covers := between (sequence (token _) (behind (token _))) _ _ made
    cases order with
    | ascending => exact .whole (.single (writtenAs_stated covers.spells))
    | descending => exact .whole covers
  · rintro _ _ ⟨first, rest, name, rfl, rfl, token, same, read⟩
    cases same
    cases Terminal.writtenAs_of_read read with
    | word is => exact .whole (.single (.bare is))

theorem index_covered : (definition .index).Covered fun index => [index.tree] := by
  refine located (behind (sequence (token _) (between (separated (reference _)))))
    fun _ value => ?_
  rcases value with ⟨_ | _, _⟩ <;> rfl

theorem function_covered : (definition .function).Covered fun function => [function.tree] := by
  have name : (Phrase.choice (.behind (.word "function") (.token .identifier))
      (.token .identifier)).Covered fun name =>
        [.leaf (.optionalWord "function"), word name] :=
    choice (weaken (behind (token _)) fun _ _ covers => covers_given covers)
      (weaken (token _) fun _ _ covers => .leaf .missing covers)
  exact located (sequence (row Decorator.tree (reference _)) (sequence name (sequence
    (between (separated (reference _))) (sequence (optional (behind (reference _)))
      (between (row Statement.tree (reference _))))))) fun _ _ => rfl

theorem item_covered : (definition .item).Covered Item.trees :=
  choice (map (before (reference _)) fun _ => rfl)
    (choice (map (reference _) fun _ => rfl) (map (before (reference _)) fun _ => rfl))

theorem collection_covered :
    (definition .collection).Covered fun collection => [collection.tree] :=
  located (sequence (row Decorator.tree (reference _)) (behind (sequence (token _)
    (braced (reference _))))) fun _ _ => rfl

theorem declaration_covered :
    (definition .declaration).Covered fun declaration => [declaration.tree] :=
  choice (map (reference _) fun _ => rfl) (map (reference _) fun _ => rfl)

/-- What the phrase that defines a symbol builds is covered by the trees of the symbol. -/
theorem definition_covered (symbol : Nonterminal α) :
    (definition symbol).Covered symbol.trees := by
  cases symbol with
  | declaration => exact declaration_covered
  | collection => exact collection_covered
  | item => exact item_covered
  | field => exact field_covered
  | index => exact index_covered
  | indexField => exact indexField_covered
  | function => exact function_covered
  | decorator => exact decorator_covered
  | type => exact type_covered
  | arraySuffix => exact arraySuffix_covered
  | mapType => exact mapType_covered
  | objectType => exact objectType_covered
  | statement => exact statement_covered
  | compound => exact compound_covered
  | simple => exact simple_covered
  | small => exact small_covered
  | letBinding => exact letBinding_covered
  | conditional => exact conditional_covered
  | branch => exact branch_covered
  | whileLoop => exact whileLoop_covered
  | forLoop => exact forLoop_covered
  | expression => exact expression_covered
  | value => exact value_covered
  | call => exact call_covered

end Definitions

end CollectionSchema.Peg
