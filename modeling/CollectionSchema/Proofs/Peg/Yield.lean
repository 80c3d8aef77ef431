import CollectionSchema.Proofs.Peg.Coverage

/-!
# What a match leaves of its tokens

What a match builds is built from the tokens that it takes and from nothing else.
For each phrase this says how the tokens of a match are made up of the tokens of its
parts (`Phrase.Built`), where those of a part are the tokens that its signs stand
for.  Every match is of that kind (`Run.built`), because the trees of the parts cover
their tokens, and the signs of these trees are the signs of the parts.
-/

set_option autoImplicit false

namespace CollectionSchema.Peg

variable {α β : Type}

/-- The signs of the values of a symbol. -/
def Nonterminal.signs : {α : Type} → Nonterminal α → α → List Sign
  | _, .declaration => Declaration.signs
  | _, .collection => Collection.signs
  | _, .item => Item.signs
  | _, .field => Field.signs
  | _, .index => Index.signs
  | _, .indexField => IndexField.signs
  | _, .function => Function.signs
  | _, .decorator => Decorator.signs
  | _, .type | _, .mapType | _, .objectType => SchemaType.signs
  | _, .arraySuffix => fun _ => [.mark '[', .mark ']']
  | _, .statement | _, .compound | _, .conditional | _, .whileLoop | _, .forLoop =>
      Statement.signs
  | _, .simple => SimpleStatement.signs
  | _, .small => SmallStatement.signs
  | _, .letBinding => Let.signs
  | _, .branch => Branch.signs
  | _, .expression => Expression.signs
  | _, .value | _, .call => Value.signs

theorem Nonterminal.signsOf_trees (symbol : Nonterminal α) (value : α) :
    SyntaxTree.signsOf (symbol.trees value) = symbol.signs value := by
  cases symbol <;> simp [Nonterminal.trees, Nonterminal.signs]

/-! ## The tokens of a match -/

/-- How the tokens from which a phrase builds a value are made up. -/
def Phrase.Built : {α : Type} → Phrase α → α → List Token → Prop
  | _, .token terminal, value, tokens =>
      ∃ token, tokens = [token] ∧ terminal.read token = some value
  | _, .reference symbol, value, tokens =>
      symbol.Present value ∧ Spells (symbol.signs value) tokens
  | _, .sequence first second, value, tokens =>
      ∃ front behind, tokens = front ++ behind ∧ first.Built value.1 front ∧
        second.Built value.2 behind
  | _, .choice first second, value, tokens => first.Built value tokens ∨ second.Built value tokens
  | _, .optional _, none, tokens => tokens = []
  | _, .optional body, some value, tokens => body.Built value tokens
  | _, .many body, items, tokens =>
      ∃ pieces, List.Forall₂ body.Built items pieces ∧ tokens = pieces.flatten
  | _, .flagged character body, value, tokens =>
      (value.1 = false ∧ body.Built value.2 tokens) ∨
      ∃ token rest, tokens = token :: rest ∧ token.isSymbol character = true ∧ value.1 = true ∧
        body.Built value.2 rest
  | _, .operation operand, value, tokens =>
      ∃ front behind, tokens = front ++ behind ∧ (Sign.operator value.1).WrittenAs front ∧
        operand.Built value.2 behind
  | _, .map build body, value, tokens => ∃ inner, build inner = value ∧ body.Built inner tokens
  | _, .located build body, value, tokens =>
      ∃ place inner, build place inner = value ∧ body.Built inner tokens

/-- The tokens from which a phrase builds a value stand for these signs of the value. -/
def Phrase.Yields (phrase : Phrase α) (signs : α → List Sign) : Prop :=
  ∀ value tokens, phrase.Built value tokens → Spells (signs value) tokens

namespace Phrase.Yields

variable {body : Phrase α} {inner : α → List Sign}

theorem reference (symbol : Nonterminal α) : (Phrase.reference symbol).Yields symbol.signs :=
  fun _ _ built => built.2

theorem many (yields : body.Yields inner) :
    (Phrase.many body).Yields fun items => items.flatMap inner := by
  rintro items _ ⟨pieces, built, rfl⟩
  induction built with
  | nil => exact .nil
  | cons here _ ih => exact (yields _ _ here).append ih

end Phrase.Yields

/-! ## Every match is built from its tokens -/

/-- What is made with trees over the tokens is built from these tokens. -/
theorem Phrase.built_of_made (phrase : Phrase α) : ∀ {value : α} {tokens : List Token},
    phrase.Made (fun symbol part piece => Covers (symbol.trees part) piece) value tokens →
      phrase.Built value tokens := by
  induction phrase with
  | token terminal => exact id
  | reference symbol =>
      rintro value tokens ⟨present, covers⟩
      exact ⟨present, symbol.signsOf_trees value ▸ covers.spells⟩
  | sequence first second left right =>
      rintro _ _ ⟨front, behind, same, madeFirst, madeSecond⟩
      exact ⟨front, behind, same, left madeFirst, right madeSecond⟩
  | choice first second left right => exact Or.imp left right
  | optional body ih =>
      rintro (_ | value) tokens made
      · exact made
      · exact ih made
  | many body ih =>
      rintro items _ ⟨pieces, made, same⟩
      exact ⟨pieces, made.imp fun _ _ => ih, same⟩
  | flagged character body ih =>
      rintro _ _ (⟨unset, made⟩ | ⟨token, rest, same, is, set, made⟩)
      · exact .inl ⟨unset, ih made⟩
      · exact .inr ⟨token, rest, same, is, set, ih made⟩
  | operation operand ih =>
      rintro _ _ ⟨front, behind, same, spelled, made⟩
      exact ⟨front, behind, same, spelled, ih made⟩
  | map build body ih =>
      rintro _ _ ⟨inner, same, made⟩
      exact ⟨inner, same, ih made⟩
  | located build body ih =>
      rintro _ _ ⟨first, rest, inner, _, same, made⟩
      exact ⟨first.position, inner, same, ih made⟩

/-- A match builds its value from the tokens that it takes. -/
theorem Run.built {name : RuleName} {phrase : Phrase α} {tokens : List Token}
    {misses : List Miss} {found : Option (α × Nat)} (run : Run name phrase tokens misses found)
    {value : α} {taken : Nat} (matched : found = some (value, taken)) :
    phrase.Built value (tokens.take taken) :=
  phrase.built_of_made (run.made definition_covered matched)

end CollectionSchema.Peg
