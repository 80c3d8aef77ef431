import CollectionSchema.Proofs.Syntax.Canonical.Program

/-!
# Programs survive being written as JSON

A program, and each of the parts of a program that have a text form of their own, is
read back from either of its texts, unless the text nests too deep.  And any text
that is accepted for such a part, whatever liberties it takes with the form, gives a
part whose own texts are accepted and give the same part again.
-/

set_option autoImplicit false

namespace CollectionSchema

/-- A part with a shape of its own makes the round trip through texts. -/
theorem Part.roundTrips {α : Type} {part : Part} {fits : α → Prop} {write : α → Json}
    {read : Json → Option α}
    (represents : Json.Represents Part.form part.shape fits write read) :
    Json.RoundTrips fits write (part.decode read) :=
  represents.roundTrips Part.form_distinct Part.form_fitsIn (Nat.zero_le _)

/-- Programs, expressions, statements, fields, indexes and types make the round trip through
texts. -/
theorem syntax_roundTrips :
    Json.RoundTrips Program.InRange Program.toJson Program.decode ∧
      Json.RoundTrips Expression.InRange Expression.toJson Expression.decode ∧
        Json.RoundTrips Statement.InRange Statement.toJson Statement.decode ∧
          Json.RoundTrips Field.InRange Field.toJson Field.decode ∧
            Json.RoundTrips Index.InRange Index.toJson Index.decode ∧
              Json.RoundTrips SchemaType.InRange SchemaType.toJson SchemaType.decode :=
  ⟨Part.roundTrips Program.represents, Part.roundTrips Expression.represents,
    Part.roundTrips Statement.represents, Part.roundTrips Field.represents,
    Part.roundTrips Index.represents, Part.roundTrips SchemaType.represents⟩

theorem syntax_roundTrips_of_index :
    let index : Index :=
      ⟨⟨1, 16⟩, true, [⟨⟨1, 17⟩, "name", .ascending⟩, ⟨⟨1, 23⟩, "age", .descending⟩]⟩
    index.InRange ∧ Index.decode index.toJson.compact = .ok index ∧
      Index.decode index.toJson.pretty = .ok index := by
  intro index
  have fits : index.InRange := by
    simp [index, Index.InRange, IndexField.InRange, Position.InRange]
  have shallow : index.toJson.depth ≤ Json.maxDepth := by decide
  have read : ∀ style ∈ Json.styles, Index.decode (style index.toJson) = .ok index := by
    intro style member
    rw [syntax_roundTrips.2.2.2.2.1.written index fits style member, if_pos shallow]
  exact ⟨fits, read _ (.head _), read _ (.tail _ (.head _))⟩

end CollectionSchema
