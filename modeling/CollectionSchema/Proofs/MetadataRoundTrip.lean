import CollectionSchema.Proofs.Metadata.Canonical

/-!
# Metadata survives being written as JSON

A metadata document is read back from its text, unless the text nests too deep.  A
text that is accepted may say less or more than the text that is written for it: what
it does not say is filled in, and what is not understood is dropped.  The document
that is written is what the accepted text means, and it is accepted in its turn for
the same metadata.
-/

set_option autoImplicit false

namespace CollectionSchema.Metadata

open Json (Represents)

theorem Root.represents : Represents Part.form (.list Part.node.shape) (fun _ => True)
    Root.toJson (Json.list? Node.ofJson?) where
  written _ _ := .ofList fun node _ => Node.written node
  readBack := Json.list?_ofList Node.readBack
  covered _ canonical := by
    obtain ⟨root, rfl⟩ := canonical.exists_ofList Node.covered
    exact ⟨root, trivial, rfl⟩

/-- The defaults of an entry are far from being too deep. -/
theorem Root.roomy : (Json.Shape.list Part.node.shape).FitsIn Part.needs Json.maxDepth := by
  show 4 ≤ 126
  decide

theorem decode_eq_decodeAs :
    decode = Json.decodeAs Part.form (.list Part.node.shape) (Json.list? Node.ofJson?) := by
  funext text
  refine congrArg (Json.decode Part.form (.list Part.node.shape) text >>= ·) (funext fun doc => ?_)
  cases Json.list? Node.ofJson? doc <;> rfl

/-- Metadata makes the round trip through texts.  What is written for a text that is accepted is
what the text means: a kind that is not known has become the fallback without fields, a field that
is missing has its default, and an argument that is missing or null is left out. -/
theorem root_roundTrips :
    Json.RoundTrips (fun _ => True) Root.toJson decode ∧
      ∀ text root, decode text = .ok root →
        Json.Means Part.form Json.maxDepth (.list Part.node.shape)
          (Json.Reading.ofText text.toList).1 root.toJson := by
  rw [decode_eq_decodeAs]
  refine ⟨Root.represents.roundTrips Part.form_distinct Part.form_fitsIn Root.roomy, ?_⟩
  intro text root done
  obtain ⟨-, decoded, -⟩ :=
    Root.represents.of_decodeAs Part.form_distinct Part.form_fitsIn Root.roomy done
  exact Json.means_of_decode Part.form_distinct decoded

theorem root_roundTrips_of_unknown_kind :
    let text : String := "[\x7b\"a\":[1],\"kind\":\"enum\"\x7d,\x7b\"kind\":\"collection\"\x7d]"
    let written : String := "[\x7b\"kind\":\"unknown\"\x7d," ++
      "\x7b\"kind\":\"collection\",\"namespace\":\x7b\"kind\":\"namespace\",\"value\":\"\"\x7d," ++
      "\"name\":\"\",\"attributes\":[]\x7d]"
    ∃ root, decode text = .ok root ∧ root.toJson.compact = written ∧ decode written = .ok root := by
  intro text written
  have outcome : (decode text).map (fun root => root.toJson.compact) = .ok written := by
    decide +kernel
  cases done : decode text with
  | error failure =>
      rw [done] at outcome
      cases outcome
  | ok root =>
      rw [done] at outcome
      have same : root.toJson.compact = written := Except.ok.inj outcome
      have again := (root_roundTrips.1.accepted text root done Json.compact (.head _)).1
      exact ⟨root, rfl, same, same ▸ again⟩

end CollectionSchema.Metadata
