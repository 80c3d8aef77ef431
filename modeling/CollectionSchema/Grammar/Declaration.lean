import CollectionSchema.Grammar.Statement
import CollectionSchema.Grammar.Type
import CollectionSchema.Syntax.Program

/-!
# The grammar of declarations

    Declaration := Collection | Function
    Collection  := Decorator* 'collection' Ident '{' Item* '}'
    Item        := Field ';' | Function | Index ';'
    Index       := '@' ('index' | 'unique') '(' (IndexField (',' IndexField)*)? ')'
    IndexField  := '[' Ident ',' SortOrder ']' | Ident
    Function    := Decorator* ('function' Ident | Ident) '(' (Field (',' Field)*)? ')'
                   (':' Type)? '{' Statement* '}'

A field is tried before a function, so a decorated item is a function only when
no name with a type follows its decorators.
-/

set_option autoImplicit false

namespace CollectionSchema.Grammar

open Rule

/-- The name of a function, with or without the word in front of it. -/
def functionName : Rule String :=
  oneOf [
    do
      word .function "function"
      identifier .function,
    identifier .function]

/-- A function. -/
def function : Rule Function := do
  let position ← here
  let decorators ← many decorator
  let name ← functionName
  mark .function '('
  let parameters ← separated .function field
  mark .function ')'
  let returnType ← optional do
    mark .function ':'
    type
  let statements ← braced .function statement
  return ⟨position, decorators, name, parameters, returnType, statements⟩

/-- One field of an index; a name without a sort order takes the unstated one. -/
def indexField : Rule IndexField :=
  oneOf [
    do
      let position ← here
      mark .indexField '['
      let name ← identifier .indexField
      mark .indexField ','
      let order ← Recognizer.sortOrder.rule .indexField
      mark .indexField ']'
      return ⟨position, name, order⟩,
    do
      let position ← here
      let name ← identifier .indexField
      return ⟨position, name, SortOrder.unstated⟩]

/-- Whether an index is unique, by the word that introduces it. -/
def indexWord : Rule Bool :=
  accept .index [.word "index", .word "unique"] fun token =>
    if token.isWord "index" then some false
    else if token.isWord "unique" then some true
    else none

/-- An index. -/
def index : Rule Index := do
  let position ← here
  mark .index '@'
  let unique ← indexWord
  mark .index '('
  let fields ← separated .index indexField
  mark .index ')'
  return ⟨position, unique, fields⟩

/-- A part of a collection. -/
def item : Rule Item :=
  oneOf [
    do
      let field ← field
      mark .item ';'
      return .field field,
    do return .function (← function),
    do
      let index ← index
      mark .item ';'
      return .index index]

/-- A collection. -/
def collection : Rule Collection := do
  let position ← here
  let decorators ← many decorator
  word .collection "collection"
  let name ← identifier .collection
  let items ← braced .collection item
  return ⟨position, decorators, name, items⟩

/-- A declaration at the top of a schema text. -/
def declaration : Rule Declaration :=
  oneOf [
    do return .collection (← collection),
    do return .function (← function)]

end CollectionSchema.Grammar
