import CollectionSchema.Proofs.Syntax.Canonical.Expression

/-!
# The documents of statements

The parts of a simple statement are taken one after another.  Statements and the arms
of conditionals go by one recursion, as expressions do; a compound statement has three
levels of its own between it and the statements inside.
-/

set_option autoImplicit false

namespace CollectionSchema

open Json (Canonical CoveredBelow Represents)

/-! ## Simple statements -/

theorem Let.written (binding : Let) (fits : binding.InRange) :
    Canonical Part.form Part.let.shape binding.toJson :=
  Part.canonical_iff.mpr (.record (.cons (Position.written _ fits.1)
    (.cons (Canonical.text_iff.mpr ⟨binding.name, rfl⟩)
      (.cons (Expression.written _ fits.2) .none))))

theorem Let.readBack (binding : Let) : Let.ofJson? binding.toJson = some binding := by
  simp [Let.toJson, Let.ofJson?, Position.readBack, Expression.readBack]

theorem Let.covered (doc : Json) (canonical : Canonical Part.form Part.let.shape doc) :
    ∃ binding : Let, binding.InRange ∧ binding.toJson = doc := by
  rw [Part.canonical_iff] at canonical
  simp only [Part.form, Part.slot, Json.formOf_record_iff, Json.fieldsOf_required_iff,
    Json.fieldsOf_nil_iff] at canonical
  obtain ⟨_, ⟨_, _, place, ⟨_, _, text, ⟨_, _, inner, rfl, rfl⟩, rfl⟩, rfl⟩, rfl⟩ := canonical
  obtain ⟨position, fits, rfl⟩ := Position.covered _ place
  obtain ⟨name, rfl⟩ := Canonical.text_iff.mp text
  obtain ⟨value, inside, rfl⟩ := Expression.covered _ inner
  exact ⟨⟨position, name, value⟩, ⟨fits, inside⟩, rfl⟩

theorem SmallStatement.written (small : SmallStatement) (fits : small.InRange) :
    Canonical Part.form Part.smallStatement.shape small.toJson := by
  refine Part.canonical_iff.mpr ?_
  match small, fits with
  | .break, _ => exact .unit (.head _)
  | .return value, fits =>
      exact .variant (.tail _ (.head _)) (Expression.written value fits)
  | .throw value, fits =>
      exact .variant (.tail _ (.tail _ (.head _))) (Expression.written value fits)
  | .let binding, fits =>
      exact .variant (.tail _ (.tail _ (.tail _ (.head _)))) (Let.written binding fits)
  | .expression value, fits =>
      exact .variant (.tail _ (.tail _ (.tail _ (.tail _ (.head _)))))
        (Expression.written value fits)

theorem SmallStatement.readBack (small : SmallStatement) :
    SmallStatement.ofJson? small.toJson = some small := by
  cases small with
  | «break» => rfl
  | «return» value | throw value | expression value =>
      simp [SmallStatement.toJson, SmallStatement.ofJson?, Json.single, Expression.readBack]
  | «let» binding =>
      simp [SmallStatement.toJson, SmallStatement.ofJson?, Json.single, Let.readBack]

theorem SmallStatement.covered (doc : Json)
    (canonical : Canonical Part.form Part.smallStatement.shape doc) :
    ∃ small : SmallStatement, small.InRange ∧ small.toJson = doc := by
  rw [Part.canonical_iff] at canonical
  simp only [Part.form, Part.variant, Json.unitVariant, Json.formOf_choice_iff,
    List.exists_mem_cons_iff, Json.VariantOf, List.not_mem_nil, false_and, exists_false,
    or_false] at canonical
  rcases canonical with rfl | ⟨_, content, rfl⟩ | ⟨_, content, rfl⟩ | ⟨_, content, rfl⟩ |
    ⟨_, content, rfl⟩
  · exact ⟨.break, trivial, rfl⟩
  · obtain ⟨value, fits, rfl⟩ := Expression.covered _ content
    exact ⟨.return value, fits, rfl⟩
  · obtain ⟨value, fits, rfl⟩ := Expression.covered _ content
    exact ⟨.throw value, fits, rfl⟩
  · obtain ⟨binding, fits, rfl⟩ := Let.covered _ content
    exact ⟨.let binding, fits, rfl⟩
  · obtain ⟨value, fits, rfl⟩ := Expression.covered _ content
    exact ⟨.expression value, fits, rfl⟩

theorem SimpleStatement.written (statement : SimpleStatement) (fits : statement.InRange) :
    Canonical Part.form Part.simpleStatement.shape statement.toJson :=
  Part.canonical_iff.mpr (.record (.cons (Position.written _ fits.1)
    (.cons (SmallStatement.written _ fits.2) .none)))

theorem SimpleStatement.readBack (statement : SimpleStatement) :
    SimpleStatement.ofJson? statement.toJson = some statement := by
  simp [SimpleStatement.toJson, SimpleStatement.ofJson?, Position.readBack, SmallStatement.readBack]

theorem SimpleStatement.covered (doc : Json)
    (canonical : Canonical Part.form Part.simpleStatement.shape doc) :
    ∃ statement : SimpleStatement, statement.InRange ∧ statement.toJson = doc := by
  rw [Part.canonical_iff] at canonical
  simp only [Part.form, Part.slot, Json.formOf_record_iff, Json.fieldsOf_required_iff,
    Json.fieldsOf_nil_iff] at canonical
  obtain ⟨_, ⟨_, _, place, ⟨_, _, inner, rfl, rfl⟩, rfl⟩, rfl⟩ := canonical
  obtain ⟨position, fits, rfl⟩ := Position.covered _ place
  obtain ⟨small, inside, rfl⟩ := SmallStatement.covered _ inner
  exact ⟨⟨position, small⟩, ⟨fits, inside⟩, rfl⟩

theorem ForInit.written (init : ForInit) (fits : init.InRange) :
    Canonical Part.form Part.forInit.shape init.toJson := by
  refine Part.canonical_iff.mpr ?_
  match init, fits with
  | .let binding, fits => exact .variant (.head _) (Let.written binding fits)
  | .expression value, fits =>
      exact .variant (.tail _ (.head _)) (Expression.written value fits)

theorem ForInit.readBack (init : ForInit) : ForInit.ofJson? init.toJson = some init := by
  cases init with
  | «let» binding =>
      simp [ForInit.toJson, ForInit.ofJson?, Json.single, Let.readBack]
  | expression value =>
      simp [ForInit.toJson, ForInit.ofJson?, Json.single, Expression.readBack]

theorem ForInit.covered (doc : Json) (canonical : Canonical Part.form Part.forInit.shape doc) :
    ∃ init : ForInit, init.InRange ∧ init.toJson = doc := by
  rw [Part.canonical_iff] at canonical
  simp only [Part.form, Part.variant, Json.formOf_choice_iff, List.exists_mem_cons_iff,
    Json.VariantOf, List.not_mem_nil, false_and, exists_false, or_false] at canonical
  rcases canonical with ⟨_, content, rfl⟩ | ⟨_, content, rfl⟩
  · obtain ⟨binding, fits, rfl⟩ := Let.covered _ content
    exact ⟨.let binding, fits, rfl⟩
  · obtain ⟨value, fits, rfl⟩ := Expression.covered _ content
    exact ⟨.expression value, fits, rfl⟩

/-! ## Writing -/

theorem Statement.written_of_compound {name : String} {part : Part}
    (listed : Part.variant name part ∈ [Part.variant "if" .if, Part.variant "while" .while,
      Part.variant "for" .for]) {content : Json}
    (canonical : Canonical Part.form part.shape content) :
    Canonical Part.form Part.statement.shape (.single "compound" (.single name content)) :=
  Part.canonical_iff.mpr
    (.variant (.head _) (Part.canonical_iff.mpr (.variant listed canonical)))

mutual

theorem Statement.written : ∀ statement : Statement, statement.InRange →
    Canonical Part.form Part.statement.shape statement.toJson
  | .if position condition thenBranch elseBranch, fits => by
      have content : Canonical Part.form Part.if.shape
          (.object [("span", position.toJson), ("condition", condition.toJson),
            ("thenBranch", thenBranch.toJson), ("elseBranch", elseBranch.toJson)]) :=
        Part.canonical_iff.mpr (.record (.cons (Position.written position fits.1)
          (.cons (Expression.written condition fits.2.1)
            (.cons (Branch.written thenBranch fits.2.2.1)
              (.cons (Branch.written elseBranch fits.2.2.2) .none)))))
      exact Statement.written_of_compound (.head _) content
  | .while position condition body, fits => by
      have inner : Canonical Part.form (.list Part.statement.shape)
          (.array (statementsToJson body)) :=
        Canonical.list_iff.mpr ⟨_, statementsWritten body fits.2.2, rfl⟩
      have content : Canonical Part.form Part.while.shape
          (.object [("span", position.toJson), ("condition", condition.toJson),
            ("body", .array (statementsToJson body))]) :=
        Part.canonical_iff.mpr (.record (.cons (Position.written position fits.1)
          (.cons (Expression.written condition fits.2.1) (.cons inner .none))))
      exact Statement.written_of_compound (.tail _ (.head _)) content
  | .for position init condition post body, fits => by
      have inner : Canonical Part.form (.list Part.statement.shape)
          (.array (statementsToJson body)) :=
        Canonical.list_iff.mpr ⟨_, statementsWritten body fits.2.2.2.2, rfl⟩
      have content : Canonical Part.form Part.for.shape
          (.object [("span", position.toJson), ("init", init.toJson),
            ("condition", condition.toJson), ("post", post.toJson),
            ("body", .array (statementsToJson body))]) :=
        Part.canonical_iff.mpr (.record (.cons (Position.written position fits.1)
          (.cons (ForInit.written init fits.2.1)
            (.cons (Expression.written condition fits.2.2.1)
              (.cons (Expression.written post fits.2.2.2.1) (.cons inner .none))))))
      exact Statement.written_of_compound (.tail _ (.tail _ (.head _))) content
  | .simple statement, fits =>
      Part.canonical_iff.mpr
        (.variant (.tail _ (.head _)) (SimpleStatement.written statement fits))

theorem Branch.written : ∀ branch : Branch, branch.InRange →
    Canonical Part.form Part.branch.shape branch.toJson
  | .block body, fits => by
      have content : Canonical Part.form (.list Part.statement.shape)
          (.array (statementsToJson body)) :=
        Canonical.list_iff.mpr ⟨_, statementsWritten body fits, rfl⟩
      exact Part.canonical_iff.mpr (.variant (.head _) content)
  | .simple statement, fits =>
      Part.canonical_iff.mpr
        (.variant (.tail _ (.head _)) (SimpleStatement.written statement fits))
  | .absent, _ => Part.canonical_iff.mpr (.unit (.tail _ (.tail _ (.head _))))

theorem statementsWritten : ∀ statements : List Statement, StatementsInRange statements →
    ∀ item ∈ statementsToJson statements, Canonical Part.form Part.statement.shape item
  | [], _, _, member => by cases member
  | statement :: rest, fits, item, member => by
      rcases List.mem_cons.mp member with rfl | inside
      · exact Statement.written statement fits.1
      · exact statementsWritten rest fits.2 item inside

end

/-! ## Reading back -/

mutual

theorem Statement.readBack : ∀ statement : Statement,
    Statement.ofJson? statement.toJson = some statement
  | .if position condition thenBranch elseBranch => by
      simp [Statement.toJson, Statement.ofJson?, Json.single, Position.readBack,
        Expression.readBack, Branch.readBack thenBranch, Branch.readBack elseBranch]
  | .while position condition body => by
      simp [Statement.toJson, Statement.ofJson?, Json.single, Position.readBack,
        Expression.readBack, statementsReadBack body]
  | .for position init condition post body => by
      simp [Statement.toJson, Statement.ofJson?, Json.single, Position.readBack,
        ForInit.readBack, Expression.readBack, statementsReadBack body]
  | .simple statement => by
      simp [Statement.toJson, Statement.ofJson?, Json.single, SimpleStatement.readBack]

theorem Branch.readBack : ∀ branch : Branch, Branch.ofJson? branch.toJson = some branch
  | .block body => by
      simp [Branch.toJson, Branch.ofJson?, Json.single, statementsReadBack body]
  | .simple statement => by
      simp [Branch.toJson, Branch.ofJson?, Json.single, SimpleStatement.readBack]
  | .absent => rfl

theorem statementsReadBack : ∀ statements : List Statement,
    statementsOfJson? (statementsToJson statements) = some statements
  | [] => rfl
  | statement :: rest => by
      simp [statementsToJson, statementsOfJson?, Statement.readBack statement,
        statementsReadBack rest]

end

/-! ## Finding the statement of a document -/

theorem statementsToJson_eq_map (statements : List Statement) :
    statementsToJson statements = statements.map Statement.toJson := by
  induction statements with
  | nil => rfl
  | cons statement rest ih => rw [statementsToJson, ih, List.map_cons]

section Covered

variable {limit : Nat}
  (statements : CoveredBelow Part.form Part.statement.shape Statement.InRange Statement.toJson
    limit)

include statements

theorem Statement.coveredBelow_succ
    (branches : CoveredBelow Part.form Part.branch.shape Branch.InRange Branch.toJson limit) :
    CoveredBelow Part.form Part.statement.shape Statement.InRange Statement.toJson
      (limit + 1) := by
  intro doc less canonical
  have form := canonical.formOf_below (Nat.le_of_lt_succ less)
  simp only [Part.form, Part.variant, Json.formOf_choice_iff, List.exists_mem_cons_iff,
    Json.VariantOf, List.not_mem_nil, false_and, exists_false, or_false] at form
  rcases form with ⟨_, compound, rfl⟩ | ⟨_, content, rfl⟩
  · have choice := compound.2.formOf_below compound.1.le
    simp only [Part.form, Part.variant, Json.formOf_choice_iff, List.exists_mem_cons_iff,
      Json.VariantOf, List.not_mem_nil, false_and, exists_false, or_false] at choice
    rcases choice with ⟨_, content, rfl⟩ | ⟨_, content, rfl⟩ | ⟨_, content, rfl⟩
    · have parts := content.2.formOf_below content.1.le
      simp only [Part.form, Part.slot, Json.formOf_record_iff, Json.fieldsOf_required_iff,
        Json.fieldsOf_nil_iff] at parts
      obtain ⟨_, ⟨_, _, place, ⟨_, _, test, ⟨_, _, whenTrue, ⟨_, _, whenFalse, rfl, rfl⟩,
        rfl⟩, rfl⟩, rfl⟩, rfl⟩ := parts
      obtain ⟨position, fits, rfl⟩ := Position.covered _ place.2
      obtain ⟨condition, tested, rfl⟩ := Expression.covered _ test.2
      obtain ⟨thenBranch, insideThen, rfl⟩ := branches _ whenTrue.1 whenTrue.2
      obtain ⟨elseBranch, insideElse, rfl⟩ := branches _ whenFalse.1 whenFalse.2
      exact ⟨.if position condition thenBranch elseBranch,
        ⟨fits, tested, insideThen, insideElse⟩, rfl⟩
    · have parts := content.2.formOf_below content.1.le
      simp only [Part.form, Part.slot, Part.slots, Json.formOf_record_iff,
        Json.fieldsOf_required_iff, Json.fieldsOf_nil_iff] at parts
      obtain ⟨_, ⟨_, _, place, ⟨_, _, test, ⟨_, _, list, rfl, rfl⟩, rfl⟩, rfl⟩, rfl⟩ := parts
      obtain ⟨position, fits, rfl⟩ := Position.covered _ place.2
      obtain ⟨condition, tested, rfl⟩ := Expression.covered _ test.2
      obtain ⟨items, each, rfl⟩ := Canonical.list_iff.mp list.2
      obtain ⟨body, inside, rfl⟩ := statements.list list.1.le each
      exact ⟨.while position condition body, ⟨fits, tested, statementsInRange_iff.mpr inside⟩, by
        rw [Statement.toJson, statementsToJson_eq_map]⟩
    · have parts := content.2.formOf_below content.1.le
      simp only [Part.form, Part.slot, Part.slots, Json.formOf_record_iff,
        Json.fieldsOf_required_iff, Json.fieldsOf_nil_iff] at parts
      obtain ⟨_, ⟨_, _, place, ⟨_, _, start, ⟨_, _, test, ⟨_, _, next, ⟨_, _, list, rfl, rfl⟩, rfl⟩,
        rfl⟩, rfl⟩, rfl⟩, rfl⟩ := parts
      obtain ⟨position, fits, rfl⟩ := Position.covered _ place.2
      obtain ⟨init, started, rfl⟩ := ForInit.covered _ start.2
      obtain ⟨condition, tested, rfl⟩ := Expression.covered _ test.2
      obtain ⟨post, stepped, rfl⟩ := Expression.covered _ next.2
      obtain ⟨items, each, rfl⟩ := Canonical.list_iff.mp list.2
      obtain ⟨body, inside, rfl⟩ := statements.list list.1.le each
      exact ⟨.for position init condition post body,
        ⟨fits, started, tested, stepped, statementsInRange_iff.mpr inside⟩, by
        rw [Statement.toJson, statementsToJson_eq_map]⟩
  · obtain ⟨statement, fits, rfl⟩ := SimpleStatement.covered _ content.2
    exact ⟨.simple statement, fits, rfl⟩

theorem Branch.coveredBelow_succ :
    CoveredBelow Part.form Part.branch.shape Branch.InRange Branch.toJson (limit + 1) := by
  intro doc less canonical
  have form := canonical.formOf_below (Nat.le_of_lt_succ less)
  simp only [Part.form, Part.variant, Part.variants, Json.unitVariant, Json.formOf_choice_iff,
    List.exists_mem_cons_iff, Json.VariantOf, List.not_mem_nil, false_and, exists_false,
    or_false] at form
  rcases form with ⟨_, list, rfl⟩ | ⟨_, content, rfl⟩ | rfl
  · obtain ⟨items, each, rfl⟩ := Canonical.list_iff.mp list.2
    obtain ⟨body, inside, rfl⟩ := statements.list list.1.le each
    exact ⟨.block body, statementsInRange_iff.mpr inside, by
      rw [Branch.toJson, statementsToJson_eq_map]⟩
  · obtain ⟨statement, fits, rfl⟩ := SimpleStatement.covered _ content.2
    exact ⟨.simple statement, fits, rfl⟩
  · exact ⟨.absent, trivial, rfl⟩

end Covered

theorem statements_coveredBelow (limit : Nat) :
    CoveredBelow Part.form Part.statement.shape Statement.InRange Statement.toJson limit ∧
      CoveredBelow Part.form Part.branch.shape Branch.InRange Branch.toJson limit := by
  induction limit with
  | zero => exact ⟨Json.coveredBelow_zero, Json.coveredBelow_zero⟩
  | succ limit ih =>
      exact ⟨Statement.coveredBelow_succ ih.1 ih.2, Branch.coveredBelow_succ ih.1⟩

theorem Statement.covered (doc : Json) (canonical : Canonical Part.form Part.statement.shape doc) :
    ∃ statement : Statement, statement.InRange ∧ statement.toJson = doc :=
  (statements_coveredBelow (doc.depth + 1)).1 doc (Nat.lt_succ_self _) canonical

theorem Statement.represents : Represents Part.form Part.statement.shape Statement.InRange
    Statement.toJson Statement.ofJson? :=
  ⟨Statement.written, Statement.readBack, Statement.covered⟩

end CollectionSchema
