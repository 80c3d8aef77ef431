import CollectionSchema.Syntax.Statement
import CollectionSchema.Syntax.Type

/-!
# Declarations and programs

A program is a list of declarations, and each of them is a collection or a
function.  A collection holds fields, functions and indexes in the order of the
text.
-/

set_option autoImplicit false

namespace CollectionSchema

/-- A function, a method of a collection or one of its hooks. -/
structure Function where
  position : Position
  decorators : List Decorator
  name : String
  parameters : List Field
  returnType : Option SchemaType
  statements : List Statement

/-- One field of an index, with the direction in which it sorts. -/
structure IndexField where
  position : Position
  name : String
  order : SortOrder
  deriving DecidableEq, Repr

/-- How an index shows one of its fields. -/
def IndexField.display (field : IndexField) : String := field.name ++ " " ++ field.order.word

/-- An index over fields of a collection. -/
structure Index where
  position : Position
  unique : Bool
  fields : List IndexField
  deriving DecidableEq, Repr

/-- One part of a collection. -/
inductive Item where
  | field (field : Field)
  | function (function : Function)
  | index (index : Index)

/-- A named set of records with the fields, functions and indexes that belong to it. -/
structure Collection where
  position : Position
  decorators : List Decorator
  name : String
  items : List Item

namespace Collection

/-- The fields of a collection, in order. -/
def fields (collection : Collection) : List Field :=
  collection.items.filterMap fun
    | .field field => some field
    | _ => none

/-- The functions of a collection, in order. -/
def functions (collection : Collection) : List Function :=
  collection.items.filterMap fun
    | .function function => some function
    | _ => none

/-- The indexes of a collection, in order. -/
def indexes (collection : Collection) : List Index :=
  collection.items.filterMap fun
    | .index index => some index
    | _ => none

end Collection

/-- A declaration at the top of a schema text. -/
inductive Declaration where
  | collection (collection : Collection)
  | function (function : Function)

namespace Declaration

/-- The name of a declaration. -/
def name : Declaration → String
  | .collection declared => declared.name
  | .function declared => declared.name

/-- The place of the first token of a declaration. -/
def position : Declaration → Position
  | .collection declared => declared.position
  | .function declared => declared.position

/-- A declaration by its name and its place. -/
def display (declaration : Declaration) : String :=
  declaration.name ++ " at " ++ declaration.position.display

end Declaration

/-- The declarations of one or several schema texts, in order. -/
structure Program where
  declarations : List Declaration

namespace Program

/-- The program without declarations. -/
def empty : Program := ⟨[]⟩

/-- The declarations of one program followed by those of another. -/
def append (first second : Program) : Program := ⟨first.declarations ++ second.declarations⟩

/-- The collections of a program, in order. -/
def collections (program : Program) : List Collection :=
  program.declarations.filterMap fun
    | .collection collection => some collection
    | .function _ => none

/-- The functions at the top of a program, in order. -/
def functions (program : Program) : List Function :=
  program.declarations.filterMap fun
    | .function function => some function
    | .collection _ => none

/-- The first collection with a name. -/
def collection? (program : Program) (name : String) : Option Collection :=
  program.collections.find? fun collection => collection.name == name

end Program

end CollectionSchema
