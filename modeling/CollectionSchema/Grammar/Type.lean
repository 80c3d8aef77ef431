import CollectionSchema.Grammar.Recognizer
import CollectionSchema.Syntax.Type

/-!
# The grammar of types and fields

    Decorator := '@' DecoratorName ('(' Ident ')')?
    Field     := Decorator* Ident '?'? ':' Type
    Type      := BasicType ('[' ']')?
               | 'map' '<' BasicType ',' Type '>'
               | '{' (Field ';')* '}'
               | Ident

The four shapes of a type are tried in this order, so a word names a collection
only when nothing more specific matches: a basic type never does, and the word
`map` does when no map follows.
-/

set_option autoImplicit false

namespace CollectionSchema.Grammar

open Rule

/-- A decorator with or without an argument. -/
def decorator : Rule Decorator := do
  let position ← here
  mark .decorator '@'
  let name ← Recognizer.decoratorName.rule .decorator
  let argument ← optional do
    mark .decorator '('
    let argument ← identifier .decorator
    mark .decorator ')'
    return argument
  return ⟨position, name, argument.toList⟩

/-- A name with its type, when a rule for types is given. -/
def fieldOf (type : Rule SchemaType) : Rule Field := do
  let position ← here
  let decorators ← many decorator
  let name ← identifier .field
  let optional ← flag '?'
  mark .field ':'
  let type ← type
  return ⟨position, decorators, name, optional, type⟩

/-- A basic type or an array of one. -/
def basicType (position : Position) : Rule SchemaType := do
  let type ← Recognizer.basicType.rule .type
  let array ← optional do
    mark .arraySuffix '['
    mark .arraySuffix ']'
  return .basic position type array.isSome

/-- A map from a basic type. -/
def mapType (type : Rule SchemaType) (position : Position) : Rule SchemaType := do
  word .mapType "map"
  mark .mapType '<'
  let key ← Recognizer.basicType.rule .mapType
  mark .mapType ','
  let value ← type
  mark .mapType '>'
  return .map position key value

/-- An object type; a semicolon follows each of its fields. -/
def objectType (type : Rule SchemaType) (position : Position) : Rule SchemaType := do
  let fields ← braced .objectType do
    let field ← fieldOf type
    mark .objectType ';'
    return field
  return .object position fields

/-- A reference to a collection. -/
def foreignType (position : Position) : Rule SchemaType := do
  let name ← identifier .type
  return .foreign position name

/-- A type whose parts are types by a given rule. -/
def typeBody (type : Rule SchemaType) : Rule SchemaType := do
  let position ← here
  oneOf [basicType position, mapType type position, objectType type position, foreignType position]

/-- A type. -/
def type : Rule SchemaType := fix typeBody

/-- A field of a collection or a parameter of a function. -/
def field : Rule Field := fieldOf type

end CollectionSchema.Grammar
