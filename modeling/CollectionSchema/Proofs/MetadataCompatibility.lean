import CollectionSchema.Proofs.Json.Compatibility
import CollectionSchema.Proofs.MetadataRoundTrip

/-!
# Metadata that says more than is understood

A metadata document may come from a program that knows more than this library does.
It may have its members in another order and members with names that mean nothing
here, and what it says of a kind that is not known here may be anything.  All of this
is without influence on what is read.
-/

set_option autoImplicit false

namespace CollectionSchema.Metadata

open Json (Edit Edits Writes)

/-- The parts whose kind need not be known. -/
theorem Part.fallback_iff (part : Part) :
    (∃ variants fallback, part.form = .tagged variants (some fallback)) ↔
      part ∈ [Part.node, .attribute, .methodAttribute, .directiveArgument] := by
  cases part <;> simp [Part.form]

/-- A text that is accepted writes a document.  Every text that writes what comes from this document
by edits is accepted, too, unless it is too deep, and it is read as the same metadata. -/
theorem decode_of_edited {text : String} {root : Root} (done : decode text = .ok root) :
    (∃ doc, Writes text doc) ∧
      ∀ doc changed other, Writes text doc →
        Edits Part.form (.shaped (.list Part.node.shape)) doc changed → Writes other changed →
          changed.depth ≤ Json.maxDepth → decode other = .ok root := by
  obtain ⟨out, decoded, made⟩ := Json.ok_of_bind done
  have tagged : Part.form .node = .tagged _ (some "unknown") := rfl
  refine ⟨Json.exists_writes tagged decoded, ?_⟩
  intro doc changed other writes edits again fits
  have same := Json.decode_of_edits Part.form_distinct writes edits again fits decoded
  rw [decode, same]
  exact made

theorem decode_of_edited_newer_version :
    let text : String := "[\x7b\"kind\":\"collection\",\"name\":\"a\"\x7d," ++
      "\x7b\"kind\":\"enum\",\"x\":1\x7d]"
    let other : String := "[\x7b\"version\":\x7b\"kind\":2\x7d,\"name\":\"a\"," ++
      "\"kind\":\"collection\"\x7d,\x7b\"kind\":\"enum\",\"y\":[],\"y\":null\x7d]"
    ∃ root, decode text = .ok root ∧ decode other = .ok root := by
  intro text other
  let version : String × Json := ("version", .single "kind" (.integer 2))
  let first : Json := .object [("kind", .string "collection"), ("name", .string "a")]
  let longer : Json := .object [("kind", .string "collection"), ("name", .string "a"), version]
  let turned : Json := .object [version, ("name", .string "a"), ("kind", .string "collection")]
  let second : Json := .object [("kind", .string "enum"), ("x", .integer 1)]
  let replaced : Json := .object [("kind", .string "enum"), ("y", .array []), ("y", .null)]
  have node : Part.form .node = .tagged _ (some "unknown") := rfl
  have added : Edit Part.form (.shaped Part.node.shape) first longer := by
    refine @Edit.add _ _ _ [("kind", .string "collection"), ("name", .string "a")] [version] _
      rfl ?_
    decide
  have moved : Edit Part.form (.shaped Part.node.shape) longer turned :=
    .permute (List.reverse_perm _).symm
  have exchanged : Edit Part.form (.shaped Part.node.shape) second replaced :=
    .replace node (by decide) (by decide) (by decide)
  have edits : Edits Part.form (.shaped (.list Part.node.shape)) (.array [first, second])
      (.array [turned, replaced]) :=
    .tail (.tail (.tail .refl (@Edit.item _ _ _ [] [second] _ _ added))
      (@Edit.item _ _ _ [] [second] _ _ moved)) (@Edit.item _ _ _ [turned] [] _ _ exchanged)
  have writes : Writes text (.array [first, second]) := by
    have spelled : text = (Json.array [first, second]).compact := by decide +kernel
    rw [spelled]
    exact Json.writes_of_mem_styles (by simp [first, second, Json.Plain, Json.PlainItems,
      Json.PlainMembers, Json.InRange]) (.head _)
  have again : Writes other (.array [turned, replaced]) := by
    have spelled : other = (Json.array [turned, replaced]).compact := by decide +kernel
    rw [spelled]
    exact Json.writes_of_mem_styles (by simp [turned, replaced, version, Json.single, Json.Plain,
      Json.PlainItems, Json.PlainMembers, Json.InRange]) (.head _)
  cases done : decode text with
  | error failure =>
      have accepted : (decode text).toBool = true := by decide +kernel
      rw [done] at accepted
      cases accepted
  | ok root =>
      exact ⟨root, rfl, (decode_of_edited done).2 _ _ _ writes edits again (by decide)⟩

end CollectionSchema.Metadata
