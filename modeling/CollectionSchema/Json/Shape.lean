import CollectionSchema.Json.Value

/-!
# Shapes of documents

A shape says which documents stand for values of a type.  Shapes are data: a
table gives a form to each name, and forms refer to each other by their names.

A record may be written as an object, with its fields in any order, or as an array
of its fields in the order of the form.  A choice is written as the name of a
variant, or as an object with a single member when the variant has content.  A
tagged record is an object in which a member named `kind` says which fields belong
to it.
-/

set_option autoImplicit false

namespace CollectionSchema.Json

/-- What a value looks like. -/
inductive Shape (Name : Type) where
  /-- A string. -/
  | text
  /-- A truth value. -/
  | flag
  /-- An integer that is not negative. -/
  | natural
  /-- An integer in 64 bits with a sign. -/
  | integer
  /-- An array of values that all look alike. -/
  | list (item : Shape Name)
  /-- Whatever the table says about a name. -/
  | named (name : Name)

/-- Whether a field must be there. -/
inductive Presence where
  | required
  /-- The field may be null, and null stands for it when an object lacks it. -/
  | nullable
  /-- The field may be null or missing, and is not written in either case. -/
  | omittable
  /-- This value stands for the field when it is missing. -/
  | defaulted (value : Json)

/-- A field of a record. -/
structure Slot (Name : Type) where
  name : String
  shape : Shape Name
  presence : Presence

/-- What a name stands for in a table of shapes. -/
inductive Form (Name : Type) where
  | record (slots : List (Slot Name))
  /-- A record in which one field must hold a fixed text. -/
  | stamped (field stamp : String) (slots : List (Slot Name))
  /-- One of several variants, each with or without content. -/
  | choice (variants : List (String × Option (Shape Name)))
  /-- An array with a fixed number of items. -/
  | tuple (items : List (Shape Name))
  /-- A record whose kind selects its fields.  With a fallback, any other kind is allowed too; it
  has no fields and is written with the name of the fallback. -/
  | tagged (variants : List (String × List (Slot Name))) (fallback : Option String)

/-- A field that must be there. -/
def Slot.required {Name : Type} (name : String) (shape : Shape Name) : Slot Name :=
  ⟨name, shape, .required⟩

/-- A variant without content. -/
def unitVariant {Name : Type} (name : String) : String × Option (Shape Name) := (name, none)

end CollectionSchema.Json
