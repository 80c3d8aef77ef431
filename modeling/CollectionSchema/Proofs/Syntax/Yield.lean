import CollectionSchema.Syntax.Program
import CollectionSchema.Text.Decimal
import CollectionSchema.Token.Basic

/-!
# The yield of a program

Going over a program in the order of its text gives the signs that it is written
with: a mark or a word for each token that the grammar asks for, a name for each
name, and so on.  Every part of a program has its own signs, and those of a list
stand one behind the other, so each sign belongs to exactly one part.

A sign says which tokens can stand for it.  For most signs that is a single token
whose kind and text are fixed.  There are four exceptions: an integer may be
spelled in any way that has its value, an operator may come as one mark or as two,
the word in front of the name of a function may be missing, and the ascending order
of an index field may be stated or not.
-/

set_option autoImplicit false

namespace CollectionSchema

/-! ## Signs and their tokens -/

/-- One thing that a program is written with. -/
inductive Sign where
  | mark (character : Char)
  /-- A word of the grammar or a name. -/
  | word (spelling : String)
  /-- A string with its quotes. -/
  | string (written : String)
  | number (value : Int64)
  | operator (operator : Operator)
  /-- A word that says nothing and may be missing. -/
  | optionalWord (spelling : String)
  /-- A field of an index that sorts in ascending order. -/
  | ascending (name : String)
  deriving DecidableEq, Repr

/-- The tokens that can stand for a sign. -/
inductive Sign.WrittenAs : Sign → List Token → Prop
  | mark {character : Char} {token : Token} (is : token.isSymbol character = true) :
      WrittenAs (.mark character) [token]
  | word {spelling : String} {token : Token} (is : token.isWord spelling = true) :
      WrittenAs (.word spelling) [token]
  | string {token : Token} (kind : token.kind = .string) :
      WrittenAs (.string token.lexeme) [token]
  | number {value : Int64} {token : Token} (kind : token.kind = .number)
      (read : Text.integer64? token.lexeme.toList = some value) :
      WrittenAs (.number value) [token]
  | operator {operator : Operator} {token : Token} (kind : token.kind = .symbol)
      (spelled : token.lexeme = operator.spelling) : WrittenAs (.operator operator) [token]
  | pair {operator : Operator} {first second : Token} (kind : first.kind = .symbol)
      (also : second.kind = .symbol)
      (spelled : first.lexeme ++ second.lexeme = operator.spelling) :
      WrittenAs (.operator operator) [first, second]
  | missing {spelling : String} : WrittenAs (.optionalWord spelling) []
  | given {spelling : String} {token : Token} (is : token.isWord spelling = true) :
      WrittenAs (.optionalWord spelling) [token]
  | bare {name : String} {token : Token} (is : token.isWord name = true) :
      WrittenAs (.ascending name) [token]
  | stated {name : String} {opening token comma order closing : Token}
      (opens : opening.isSymbol '[' = true) (is : token.isWord name = true)
      (separates : comma.isSymbol ',' = true) (orders : order.isWord "asc" = true)
      (closes : closing.isSymbol ']' = true) :
      WrittenAs (.ascending name) [opening, token, comma, order, closing]

/-- Signs and the tokens that stand for them, piece by piece and in the same order: each token
belongs to exactly one sign. -/
inductive Spells : List Sign → List Token → Prop
  | nil : Spells [] []
  | cons {sign : Sign} {signs : List Sign} {piece tokens : List Token}
      (first : sign.WrittenAs piece) (rest : Spells signs tokens) :
      Spells (sign :: signs) (piece ++ tokens)

namespace Spells

theorem append {signs others : List Sign} {tokens more : List Token}
    (first : Spells signs tokens) (second : Spells others more) :
    Spells (signs ++ others) (tokens ++ more) := by
  induction first with
  | nil => exact second
  | cons piece _ ih =>
      rw [List.cons_append, List.append_assoc]
      exact .cons piece ih

theorem of_append {signs others : List Sign} : ∀ {tokens : List Token},
    Spells (signs ++ others) tokens →
      ∃ front behind, tokens = front ++ behind ∧ Spells signs front ∧ Spells others behind := by
  induction signs with
  | nil => exact fun spells => ⟨[], _, rfl, .nil, spells⟩
  | cons sign signs ih =>
      intro tokens spells
      cases spells with
      | cons piece rest =>
          obtain ⟨front, behind, rfl, first, second⟩ := ih rest
          exact ⟨_, behind, (List.append_assoc _ _ _).symm, .cons piece first, second⟩

theorem of_word {spelling : String} {signs : List Sign} {tokens : List Token}
    (spells : Spells (.word spelling :: signs) tokens) :
    ∃ first rest, tokens = first :: rest ∧ first.isWord spelling = true ∧ Spells signs rest := by
  cases spells with
  | cons piece rest =>
      cases piece with
      | word is => exact ⟨_, _, rfl, is, rest⟩

theorem of_mark {character : Char} {signs : List Sign} {tokens : List Token}
    (spells : Spells (.mark character :: signs) tokens) :
    ∃ first rest, tokens = first :: rest ∧ first.isSymbol character = true ∧ Spells signs rest := by
  cases spells with
  | cons piece rest =>
      cases piece with
      | mark is => exact ⟨_, _, rfl, is, rest⟩

end Spells

/-! ## The signs of each part -/

/-- Lists of signs with commas between them. -/
def Sign.separated (parts : List (List Sign)) : List Sign := List.intercalate [.mark ','] parts

/-- Signs between two marks. -/
def Sign.between (opening closing : Char) (signs : List Sign) : List Sign :=
  .mark opening :: signs ++ [.mark closing]

/-- Signs between braces. -/
def Sign.braced (signs : List Sign) : List Sign := between '\x7b' '\x7d' signs

open Sign (between braced separated)

/-- The signs of a decorator. -/
def Decorator.signs (decorator : Decorator) : List Sign :=
  .mark '@' :: .word decorator.name.word ::
    match decorator.arguments with
    | [] => []
    | arguments => between '(' ')' (separated (arguments.map fun name => [.word name]))

mutual

/-- The signs of a type. -/
def SchemaType.signs : SchemaType → List Sign
  | .basic _ type array => .word type.word :: if array then [.mark '[', .mark ']'] else []
  | .map _ key value =>
    .word "map" :: between '<' '>' (.word key.word :: .mark ',' :: value.signs)
  | .object _ fields => braced (fieldsSigns fields)
  | .foreign _ name => [.word name]

/-- The signs of a field. -/
def Field.signs : Field → List Sign
  | ⟨_, decorators, name, optional, type⟩ =>
    decorators.flatMap Decorator.signs ++ .word name ::
      ((if optional then [.mark '?'] else []) ++ .mark ':' :: type.signs)

/-- The signs of the fields of an object type, each with a semicolon behind it. -/
def fieldsSigns : List Field → List Sign
  | [] => []
  | field :: rest => field.signs ++ .mark ';' :: fieldsSigns rest

end

mutual

/-- The signs of a value. -/
def Value.signs : Value → List Sign
  | .number _ value => [.number value]
  | .string _ written => [.string written]
  | .boolean _ truth => [.word (if truth then "true" else "false")]
  | .call _ callee arguments =>
    .word callee :: between '(' ')' (separated (argumentsSigns arguments))
  | .identifier _ name => [.word name]
  | .enclosed _ inner => between '(' ')' inner.signs

/-- The signs of an expression. -/
def Expression.signs : Expression → List Sign
  | .single _ left => left.signs
  | .binary _ left operator right => left.signs ++ .operator operator :: right.signs

/-- The signs of each argument of a call. -/
def argumentsSigns : List Expression → List (List Sign)
  | [] => []
  | argument :: rest => argument.signs :: argumentsSigns rest

end

/-- The signs of a binding. -/
def Let.signs (binding : Let) : List Sign :=
  .word "let" :: .word binding.name :: .mark '=' :: binding.value.signs

/-- The signs of a statement without its semicolon. -/
def SmallStatement.signs : SmallStatement → List Sign
  | .break => [.word "break"]
  | .return value => .word "return" :: value.signs
  | .throw value => .word "throw" :: value.signs
  | .let binding => binding.signs
  | .expression value => value.signs

/-- The signs of a simple statement. -/
def SimpleStatement.signs (statement : SimpleStatement) : List Sign :=
  statement.small.signs ++ [.mark ';']

/-- The signs of the first clause of a counting loop. -/
def ForInit.signs : ForInit → List Sign
  | .let binding => binding.signs
  | .expression value => value.signs

mutual

/-- The signs of a statement. -/
def Statement.signs : Statement → List Sign
  | .if _ condition thenBranch elseBranch =>
    .word "if" :: (between '(' ')' condition.signs ++ (thenBranch.signs ++
      if elseBranch.isAbsent then [] else .word "else" :: elseBranch.signs))
  | .while _ condition body =>
    .word "while" :: (between '(' ')' condition.signs ++ braced (statementsSigns body))
  | .for _ init condition post body =>
    .word "for" :: (between '(' ')'
      (init.signs ++ .mark ';' :: (condition.signs ++ .mark ';' :: post.signs)) ++
        braced (statementsSigns body))
  | .simple statement => statement.signs

/-- The signs of an arm of a conditional; an arm that is missing has none. -/
def Branch.signs : Branch → List Sign
  | .block body => braced (statementsSigns body)
  | .simple statement => statement.signs
  | .absent => []

/-- The signs of the statements of a body. -/
def statementsSigns : List Statement → List Sign
  | [] => []
  | statement :: rest => statement.signs ++ statementsSigns rest

end

/-- The signs of a field of an index. -/
def IndexField.signs (field : IndexField) : List Sign :=
  match field.order with
  | .ascending => [.ascending field.name]
  | .descending => between '[' ']' [.word field.name, .mark ',', .word "desc"]

/-- The signs of an index. -/
def Index.signs (index : Index) : List Sign :=
  .mark '@' :: .word (if index.unique then "unique" else "index") ::
    between '(' ')' (separated (index.fields.map IndexField.signs))

/-- The signs of a function. -/
def Function.signs (function : Function) : List Sign :=
  function.decorators.flatMap Decorator.signs ++ .optionalWord "function" :: .word function.name ::
    (between '(' ')' (separated (function.parameters.map Field.signs)) ++
      ((function.returnType.elim [] fun type => .mark ':' :: type.signs) ++
        braced (function.statements.flatMap Statement.signs)))

/-- The signs of a part of a collection. -/
def Item.signs : Item → List Sign
  | .field declared => declared.signs ++ [.mark ';']
  | .function declared => declared.signs
  | .index declared => declared.signs ++ [.mark ';']

/-- The signs of a collection. -/
def Collection.signs (collection : Collection) : List Sign :=
  collection.decorators.flatMap Decorator.signs ++ .word "collection" :: .word collection.name ::
    braced (collection.items.flatMap Item.signs)

/-- The signs of a declaration. -/
def Declaration.signs : Declaration → List Sign
  | .collection declared => declared.signs
  | .function declared => declared.signs

/-- The signs of a program. -/
def Program.signs (program : Program) : List Sign := program.declarations.flatMap Declaration.signs

end CollectionSchema
