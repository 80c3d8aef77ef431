import CollectionSchema.Syntax.Word

/-!
# Schema metadata

Besides schema texts there are metadata documents, which describe collections
after they were compiled.  A document may hold things that this library does not
know; wherever that can happen there is a place for the unknown, and nothing of
its content is kept.
-/

set_option autoImplicit false

namespace CollectionSchema.Metadata

/-- The types that hold a single value. -/
inductive PrimitiveType where
  | string
  | number
  | boolean
  | bytes
  deriving DecidableEq, Repr

namespace PrimitiveType

/-- Every primitive type, in order. -/
def all : List PrimitiveType := [.string, .number, .boolean, .bytes]

/-- The word for a primitive type. -/
def word : PrimitiveType → String
  | .string => "string"
  | .number => "number"
  | .boolean => "boolean"
  | .bytes => "bytes"

/-- The primitive type with this word. -/
def ofWord? (text : String) : Option PrimitiveType := all.find? fun type => type.word == text

theorem ofWord?_word (type : PrimitiveType) : ofWord? type.word = some type := by
  cases type <;> rfl

end PrimitiveType

mutual

/-- The type of a property, a parameter or a result. -/
inductive DataType where
  | primitive (type : PrimitiveType)
  | array (item : DataType)
  | map (key value : DataType)
  | object (fields : List ObjectField)
  | record
  /-- A record of another collection. -/
  | foreignRecord (collection : String)
  | publicKey

/-- A field of an object type. -/
structure ObjectField where
  name : String
  type : DataType
  required : Bool

end

/-- What a directive applies to. -/
inductive DirectiveArgument where
  /-- A field, by the path that leads to it. -/
  | fieldReference (path : List String)
  | unknown
  deriving DecidableEq, Repr

/-- A directive with or without an argument. -/
structure Directive where
  name : String
  argument : Option DirectiveArgument
  deriving DecidableEq, Repr

/-- A property of the records of a collection. -/
structure Property where
  name : String
  type : DataType
  directives : List Directive
  required : Bool

/-- A parameter of a method. -/
structure Parameter where
  name : String
  type : DataType
  required : Bool

/-- The result of a method. -/
structure ReturnValue where
  name : String
  type : DataType

/-- What a method has besides its name and its code. -/
inductive MethodAttribute where
  | directive (directive : Directive)
  | parameter (parameter : Parameter)
  | returnValue (result : ReturnValue)
  | unknown

/-- A method of a collection. -/
structure Method where
  name : String
  attributes : List MethodAttribute
  code : String

/-- A field of an index, by the path that leads to it. -/
structure IndexField where
  direction : SortOrder
  fieldPath : List String
  deriving DecidableEq, Repr

/-- An index of a collection. -/
structure Index where
  fields : List IndexField
  deriving DecidableEq, Repr

/-- A part of a collection. -/
inductive Attribute where
  | property (property : Property)
  | method (method : Method)
  | directive (directive : Directive)
  | index (index : Index)
  | unknown

/-- A collection in its namespace. -/
structure Collection where
  space : String
  name : String
  attributes : List Attribute

/-- One entry of a metadata document. -/
inductive Node where
  | collection (collection : Collection)
  | unknown

/-- The collection that an entry describes, when it describes one. -/
def Node.collection? : Node → Option Collection
  | .collection described => some described
  | .unknown => none

/-- A metadata document. -/
abbrev Root := List Node

end CollectionSchema.Metadata
