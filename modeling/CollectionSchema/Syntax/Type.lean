import CollectionSchema.Syntax.Word
import CollectionSchema.Text.Position

/-!
# Types, fields and decorators

The type of a field or parameter is a basic type or an array of one, a map, an
object with fields of its own, or the name of another collection.  Every part
keeps the place of its first token, and lists keep the order of the text.

A type is shown on one line in the notation of the schema language.  The
decorators of an object's fields are left out.
-/

set_option autoImplicit false

namespace CollectionSchema

/-- A mark in front of a declaration, with at most one name as its argument when it comes from a
schema text. -/
structure Decorator where
  position : Position
  name : DecoratorName
  arguments : List String
  deriving DecidableEq, Repr

mutual

/-- The type of a field, a parameter or a result. -/
inductive SchemaType where
  /-- A basic type, or the array of its values. -/
  | basic (position : Position) (type : BasicType) (array : Bool)
  /-- A map from a basic type. -/
  | map (position : Position) (key : BasicType) (value : SchemaType)
  /-- An object with these fields. -/
  | object (position : Position) (fields : List Field)
  /-- A reference to a collection by its name. -/
  | foreign (position : Position) (name : String)

/-- A named part of a collection or an object type, or a parameter of a function. -/
structure Field where
  position : Position
  decorators : List Decorator
  name : String
  /-- Whether a question mark follows the name. -/
  optional : Bool
  type : SchemaType

end

namespace SchemaType

/-- The place of the first token of a type. -/
def position : SchemaType → Position
  | .basic position _ _ => position
  | .map position _ _ => position
  | .object position _ => position
  | .foreign position _ => position

/-- The collection that a type refers to, when it is a reference. -/
def foreignName? : SchemaType → Option String
  | .foreign _ name => some name
  | _ => none

mutual

/-- A type in the notation of the schema language. -/
def display : SchemaType → String
  | .basic _ type array => type.word ++ if array then "[]" else ""
  | .map _ key value => "map<" ++ key.word ++ ", " ++ display value ++ ">"
  | .object _ fields => "\x7b " ++ displayFields fields ++ "\x7d"
  | .foreign _ name => name

/-- The fields of an object type, each with a semicolon and a space behind it. -/
def displayFields : List Field → String
  | [] => ""
  | ⟨_, _, name, optional, type⟩ :: rest =>
    name ++ (if optional then "?" else "") ++ ": " ++ display type ++ "; " ++ displayFields rest

end

end SchemaType

end CollectionSchema
