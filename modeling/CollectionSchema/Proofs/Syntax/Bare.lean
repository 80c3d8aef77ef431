import CollectionSchema.Proofs.Syntax.Regular

/-!
# The types in a program

A type stands in a field or a parameter or is the result of a function, or it stands
inside another type.  Going over a program gives all of them.  What a type shows of
itself is its bare form, without places and without the decorators of members.
-/

set_option autoImplicit false

namespace CollectionSchema

/-! ## All types of a program -/

mutual

/-- A type with all types inside it. -/
def SchemaType.types : SchemaType → List SchemaType
  | .basic position type array => [.basic position type array]
  | .map position key value => .map position key value :: value.types
  | .object position fields => .object position fields :: fieldsTypes fields
  | .foreign position name => [.foreign position name]

/-- All types in a field. -/
def Field.types : Field → List SchemaType
  | ⟨_, _, _, _, type⟩ => type.types

/-- All types in some fields. -/
def fieldsTypes : List Field → List SchemaType
  | [] => []
  | field :: rest => field.types ++ fieldsTypes rest

end

/-- All types in a function. -/
def Function.types (function : Function) : List SchemaType :=
  function.parameters.flatMap Field.types ++ function.returnType.elim [] SchemaType.types

/-- All types in a part of a collection. -/
def Item.types : Item → List SchemaType
  | .field declared => declared.types
  | .function declared => declared.types
  | .index _ => []

/-- All types in a declaration. -/
def Declaration.types : Declaration → List SchemaType
  | .collection declared => declared.items.flatMap Item.types
  | .function declared => declared.types

/-- All types in a program. -/
def Program.types (program : Program) : List SchemaType :=
  program.declarations.flatMap Declaration.types

/-! ## Types of a regular program -/

mutual

theorem SchemaType.regular_types : ∀ type : SchemaType, type.Regular →
    ∀ inner ∈ type.types, inner.Regular
  | .basic _ _ _, regular => List.forall_mem_singleton.mpr regular
  | .map _ _ value, regular => List.forall_mem_cons.mpr ⟨regular, value.regular_types regular⟩
  | .object _ fields, regular =>
      List.forall_mem_cons.mpr ⟨regular, regular_fieldsTypes fields regular⟩
  | .foreign _ _, regular => List.forall_mem_singleton.mpr regular

theorem Field.regular_types : ∀ field : Field, field.Regular → ∀ inner ∈ field.types, inner.Regular
  | ⟨_, _, _, _, type⟩, regular => type.regular_types regular.2.2

theorem regular_fieldsTypes : ∀ fields : List Field, FieldsRegular fields →
    ∀ inner ∈ fieldsTypes fields, inner.Regular
  | [], _ => nofun
  | field :: rest, regular => List.forall_mem_append.mpr
      ⟨field.regular_types regular.1, regular_fieldsTypes rest regular.2⟩

end

theorem Function.regular_types {function : Function} (regular : function.Regular) :
    ∀ type ∈ function.types, type.Regular := by
  obtain ⟨_, _, parameters, result, _⟩ := regular
  refine List.forall_mem_append.mpr ⟨?_, ?_⟩
  · refine List.forall_mem_flatMap.mpr fun field member => ?_
    exact field.regular_types (parameters field member)
  · rcases returns : function.returnType with _ | type
    · exact nofun
    · exact type.regular_types (result type returns)

theorem Item.regular_types {item : Item} (regular : item.Regular) :
    ∀ type ∈ item.types, type.Regular := by
  cases item with
  | field declared => exact declared.regular_types regular
  | function declared => exact Function.regular_types regular
  | index _ => exact nofun

theorem Declaration.regular_types {declaration : Declaration} (regular : declaration.Regular) :
    ∀ type ∈ declaration.types, type.Regular := by
  cases declaration with
  | collection declared =>
      exact List.forall_mem_flatMap.mpr fun item member =>
        Item.regular_types (regular.2.2 item member)
  | function declared => exact Function.regular_types regular

/-- All types in a regular program are regular. -/
theorem Program.regular_types {program : Program} (regular : program.Regular) :
    ∀ type ∈ program.types, type.Regular :=
  List.forall_mem_flatMap.mpr fun declaration member =>
    Declaration.regular_types (regular declaration member)

/-! ## Bare types -/

mutual

/-- A type without the places of its parts and without the decorators of its members. -/
def SchemaType.bare : SchemaType → SchemaType
  | .basic _ type array => .basic Position.start type array
  | .map _ key value => .map Position.start key value.bare
  | .object _ fields => .object Position.start (bareFields fields)
  | .foreign _ name => .foreign Position.start name

/-- A field without places and decorators. -/
def Field.bare : Field → Field
  | ⟨_, _, name, optional, type⟩ => ⟨Position.start, [], name, optional, type.bare⟩

/-- Fields without places and decorators. -/
def bareFields : List Field → List Field
  | [] => []
  | field :: rest => field.bare :: bareFields rest

end

end CollectionSchema
