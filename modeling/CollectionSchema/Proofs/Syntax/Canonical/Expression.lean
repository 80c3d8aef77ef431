import CollectionSchema.Proofs.Syntax.Canonical.Type

/-!
# The documents of expressions

An expression and the values in it refer to each other, so both go by one recursion:
over the expression when it is written and read back, and over the depth of the
document when an expression is found for it.
-/

set_option autoImplicit false

namespace CollectionSchema

open Json (Canonical CoveredBelow Represents)

/-! ## Integers -/

theorem fitsInteger64_toInt (value : Int64) : Text.fitsInteger64 value.toInt = true := by
  have lower := value.le_toInt
  have upper := value.toInt_lt
  simp only [Text.fitsInteger64, Bool.and_eq_true, decide_eq_true_eq]
  constructor <;> omega

theorem Json.integer64?_toInt (value : Int64) :
    Json.integer64? (.integer value.toInt) = some value := by
  rw [Json.integer64?, if_pos (fitsInteger64_toInt value), Int64.ofInt_toInt]

theorem exists_toInt_of_fitsInteger64 {value : Int} (fits : Text.fitsInteger64 value = true) :
    ∃ number : Int64, number.toInt = value := by
  simp only [Text.fitsInteger64, Bool.and_eq_true, decide_eq_true_eq] at fits
  exact ⟨Int64.ofInt value, Int64.toInt_ofInt_of_le (by omega) (by omega)⟩

/-! ## Writing -/

theorem Value.written_of_kind {position : Position} (fits : position.InRange) {kind : Json}
    (content : Canonical Part.form Part.valueKind.shape kind) :
    Canonical Part.form Part.value.shape (.object [("span", position.toJson), ("kind", kind)]) :=
  Part.canonical_iff.mpr
    (.record (.cons (Position.written position fits) (.cons content .none)))

mutual

theorem Value.written : ∀ value : Value, value.InRange →
    Canonical Part.form Part.value.shape value.toJson
  | .number position value, fits =>
      Value.written_of_kind fits (Part.canonical_iff.mpr (.variant (.head _)
        (Canonical.integer_iff.mpr ⟨_, fitsInteger64_toInt value, rfl⟩)))
  | .string position written, fits =>
      Value.written_of_kind fits (Part.canonical_iff.mpr (.variant (.tail _ (.head _))
        (Canonical.text_iff.mpr ⟨written, rfl⟩)))
  | .boolean position truth, fits =>
      Value.written_of_kind fits (Part.canonical_iff.mpr (.variant (.tail _ (.tail _ (.head _)))
        (Canonical.flag_iff.mpr ⟨truth, rfl⟩)))
  | .call position callee arguments, fits => by
      have inner : Canonical Part.form (.list Part.expression.shape)
          (.array (argumentsToJson arguments)) :=
        Canonical.list_iff.mpr ⟨_, argumentsWritten arguments fits.2, rfl⟩
      have content : Canonical Part.form Part.callContent.shape
          (.object [("callee", .string callee),
            ("arguments", .array (argumentsToJson arguments))]) :=
        Part.canonical_iff.mpr
          (.record (.cons (Canonical.text_iff.mpr ⟨callee, rfl⟩) (.cons inner .none)))
      exact Value.written_of_kind fits.1 (Part.canonical_iff.mpr
        (.variant (.tail _ (.tail _ (.tail _ (.head _)))) content))
  | .identifier position name, fits =>
      Value.written_of_kind fits (Part.canonical_iff.mpr
        (.variant (.tail _ (.tail _ (.tail _ (.tail _ (.head _)))))
          (Canonical.text_iff.mpr ⟨name, rfl⟩)))
  | .enclosed position inner, fits =>
      Value.written_of_kind fits.1 (Part.canonical_iff.mpr
        (.variant (.tail _ (.tail _ (.tail _ (.tail _ (.tail _ (.head _))))))
          (Expression.written inner fits.2)))

theorem Expression.written : ∀ expression : Expression, expression.InRange →
    Canonical Part.form Part.expression.shape expression.toJson
  | .single position left, fits =>
      Part.canonical_iff.mpr (.record (.cons (Position.written position fits.1)
        (.cons (Value.written left fits.2) (.written .null .none))))
  | .binary position left operator right, fits => by
      have operand : Canonical Part.form Part.operand.shape
          (.array [.string operator.name, right.toJson]) :=
        Part.canonical_iff.mpr (.tuple (.cons (Operator.canonical_iff.mpr ⟨operator, rfl⟩)
          (.cons (Value.written right fits.2.2) .nil)))
      exact Part.canonical_iff.mpr (.record (.cons (Position.written position fits.1)
        (.cons (Value.written left fits.2.1) (.cons operand .none))))

theorem argumentsWritten : ∀ arguments : List Expression, ArgumentsInRange arguments →
    ∀ item ∈ argumentsToJson arguments, Canonical Part.form Part.expression.shape item
  | [], _, _, member => by cases member
  | argument :: rest, fits, item, member => by
      rcases List.mem_cons.mp member with rfl | inside
      · exact Expression.written argument fits.1
      · exact argumentsWritten rest fits.2 item inside

end

/-! ## Reading back -/

mutual

theorem Value.readBack : ∀ value : Value, Value.ofJson? value.toJson = some value
  | .number position value => by
      simp [Value.toJson, Value.ofJson?, Json.single, Position.readBack, Json.integer64?_toInt]
  | .string position written | .boolean position truth | .identifier position name => by
      simp [Value.toJson, Value.ofJson?, Json.single, Position.readBack]
  | .call position callee arguments => by
      simp [Value.toJson, Value.ofJson?, Json.single, Position.readBack,
        argumentsReadBack arguments]
  | .enclosed position inner => by
      simp [Value.toJson, Value.ofJson?, Json.single, Position.readBack, Expression.readBack inner]

theorem Expression.readBack : ∀ expression : Expression,
    Expression.ofJson? expression.toJson = some expression
  | .single position left => by
      simp [Expression.toJson, Expression.ofJson?, Position.readBack, Value.readBack left]
  | .binary position left operator right => by
      simp [Expression.toJson, Expression.ofJson?, Position.readBack,
        Value.readBack left, Operator.ofName?_name, Value.readBack right]

theorem argumentsReadBack : ∀ arguments : List Expression,
    argumentsOfJson? (argumentsToJson arguments) = some arguments
  | [] => rfl
  | argument :: rest => by
      simp [argumentsToJson, argumentsOfJson?, Expression.readBack argument, argumentsReadBack rest]

end

/-! ## Finding the expression of a document -/

theorem argumentsToJson_eq_map (arguments : List Expression) :
    argumentsToJson arguments = arguments.map Expression.toJson := by
  induction arguments with
  | nil => rfl
  | cons argument rest ih => rw [argumentsToJson, ih, List.map_cons]

theorem Value.coveredBelow_succ {limit : Nat}
    (expressions : CoveredBelow Part.form Part.expression.shape Expression.InRange
      Expression.toJson limit) :
    CoveredBelow Part.form Part.value.shape Value.InRange Value.toJson (limit + 1) := by
  intro doc less canonical
  have form := canonical.formOf_below (Nat.le_of_lt_succ less)
  simp only [Part.form, Part.slot, Json.formOf_record_iff, Json.fieldsOf_required_iff,
    Json.fieldsOf_nil_iff] at form
  obtain ⟨_, ⟨_, _, place, ⟨_, _, kind, rfl, rfl⟩, rfl⟩, rfl⟩ := form
  obtain ⟨position, fits, rfl⟩ := Position.covered _ place.2
  have choice := kind.2.formOf_below kind.1.le
  simp only [Part.form, Part.variant, Json.formOf_choice_iff, List.exists_mem_cons_iff,
    Json.VariantOf, List.not_mem_nil, false_and, exists_false, or_false] at choice
  rcases choice with ⟨_, content, rfl⟩ | ⟨_, content, rfl⟩ | ⟨_, content, rfl⟩ |
    ⟨_, content, rfl⟩ | ⟨_, content, rfl⟩ | ⟨_, content, rfl⟩
  · obtain ⟨_, small, rfl⟩ := Canonical.integer_iff.mp content.2
    obtain ⟨number, rfl⟩ := exists_toInt_of_fitsInteger64 small
    exact ⟨.number position number, fits, rfl⟩
  · obtain ⟨written, rfl⟩ := Canonical.text_iff.mp content.2
    exact ⟨.string position written, fits, rfl⟩
  · obtain ⟨truth, rfl⟩ := Canonical.flag_iff.mp content.2
    exact ⟨.boolean position truth, fits, rfl⟩
  · have parts := content.2.formOf_below content.1.le
    simp only [Part.form, Part.slots, Json.formOf_record_iff, Json.fieldsOf_required_iff,
      Json.fieldsOf_nil_iff] at parts
    obtain ⟨_, ⟨_, _, text, ⟨_, _, list, rfl, rfl⟩, rfl⟩, rfl⟩ := parts
    obtain ⟨callee, rfl⟩ := Canonical.text_iff.mp text.2
    obtain ⟨items, each, rfl⟩ := Canonical.list_iff.mp list.2
    obtain ⟨arguments, inside, rfl⟩ := expressions.list list.1.le each
    exact ⟨.call position callee arguments, ⟨fits, argumentsInRange_iff.mpr inside⟩, by
      rw [Value.toJson, argumentsToJson_eq_map]⟩
  · obtain ⟨name, rfl⟩ := Canonical.text_iff.mp content.2
    exact ⟨.identifier position name, fits, rfl⟩
  · obtain ⟨expression, inside, rfl⟩ := expressions _ content.1 content.2
    exact ⟨.enclosed position expression, ⟨fits, inside⟩, rfl⟩

theorem Expression.coveredBelow_succ {limit : Nat}
    (values : CoveredBelow Part.form Part.value.shape Value.InRange Value.toJson limit) :
    CoveredBelow Part.form Part.expression.shape Expression.InRange Expression.toJson
      (limit + 1) := by
  intro doc less canonical
  have form := canonical.formOf_below (Nat.le_of_lt_succ less)
  simp only [Part.form, Part.slot, Json.formOf_record_iff, Json.fieldsOf_required_iff,
    Json.fieldsOf_nullable_iff, Json.fieldsOf_nil_iff] at form
  obtain ⟨_, ⟨_, _, place, ⟨_, _, front, ⟨_, _, behind, rfl, rfl⟩, rfl⟩, rfl⟩, rfl⟩ := form
  obtain ⟨position, fits, rfl⟩ := Position.covered _ place.2
  obtain ⟨left, inside, rfl⟩ := values _ front.1 front.2
  rcases behind with operand | rfl
  · have pair := operand.2.formOf_below operand.1.le
    simp only [Part.form, Json.formOf_tuple_iff, List.forall₂_cons_left_iff,
      List.forall₂_nil_left_iff] at pair
    obtain ⟨_, ⟨_, _, word, ⟨_, _, back, rfl, rfl⟩, rfl⟩, rfl⟩ := pair
    obtain ⟨operator, rfl⟩ := Operator.canonical_iff.mp word.2
    obtain ⟨right, after, rfl⟩ := values _ back.1 back.2
    exact ⟨.binary position left operator right, ⟨fits, inside, after⟩, rfl⟩
  · exact ⟨.single position left, ⟨fits, inside⟩, rfl⟩

theorem expressions_coveredBelow (limit : Nat) :
    CoveredBelow Part.form Part.value.shape Value.InRange Value.toJson limit ∧
      CoveredBelow Part.form Part.expression.shape Expression.InRange Expression.toJson limit := by
  induction limit with
  | zero => exact ⟨Json.coveredBelow_zero, Json.coveredBelow_zero⟩
  | succ limit ih =>
      exact ⟨Value.coveredBelow_succ ih.2, Expression.coveredBelow_succ ih.1⟩

theorem Expression.covered (doc : Json)
    (canonical : Canonical Part.form Part.expression.shape doc) :
    ∃ expression : Expression, expression.InRange ∧ expression.toJson = doc :=
  (expressions_coveredBelow (doc.depth + 1)).2 doc (Nat.lt_succ_self _) canonical

theorem Expression.represents : Represents Part.form Part.expression.shape Expression.InRange
    Expression.toJson Expression.ofJson? :=
  ⟨Expression.written, Expression.readBack, Expression.covered⟩

end CollectionSchema
