import CollectionSchema.Grammar.Furthest
import CollectionSchema.Proofs.Peg.Reply
import Mathlib.Data.List.Induction

/-!
# What the furthest failure sums up

The record of the furthest failure is updated with every note that a failed rule
leaves behind, in the order in which the rules are tried.  That order knows nothing
about places: alternatives that are given up go back, so notes about earlier and
later tokens alternate.  The record is nevertheless a function of the whole row of
notes that can be told without going over it.

It points to the furthest place of all notes, and of these only the ones that point
there count.  It lists what they wanted, each thing once and in the order in which
it was wanted first; its rule is the first of theirs that is not a lookahead, or
their first one when all are; and it is literal when one of them is.

An error lists labels, and two things that were wanted could have the same one: a
mark and a word of a single character.  Without such words the labels are without
repetition too, and the grammar has no such words (`Run.legible`).
-/

set_option autoImplicit false

namespace CollectionSchema

/-! ## Labels -/

/-- Whether the label of something that was wanted tells it from everything else.  A word of a
single character has the label of a mark. -/
def Expectation.legible : Expectation → Bool
  | .word spelling => spelling.length != 1
  | _ => true

theorem Expectation.eq_of_text_eq {first second : Expectation} (legible : first.legible = true)
    (also : second.legible = true) (same : first.text = second.text) : first = second := by
  have apart : ∀ {spelling : String} {character : Char}, (word spelling).legible = true →
      spelling.toList ++ ['\''] ≠ [character, '\''] := by
    intro spelling character several letters
    have length := congrArg List.length letters
    rw [List.length_append, String.length_toList] at length
    simp only [Expectation.legible, bne_iff_ne] at several
    exact several (Nat.succ.inj length)
  have letters := congrArg String.toList same
  cases first <;> cases second <;> simp [text] at letters
  case mark.mark => rw [letters]
  case word.word => rw [String.toList_inj.mp letters]
  case mark.word => exact absurd letters.symm (apart also)
  case word.mark => exact absurd letters (apart legible)
  all_goals rfl

namespace Peg

variable {α : Type}

/-- Whether what a terminal asks for is legible. -/
def Terminal.legible : Terminal α → Bool
  | .word spelling => (Expectation.word spelling).legible
  | .either first second =>
      (Expectation.word first).legible && (Expectation.word second).legible
  | _ => true

/-- Whether all terminals of a phrase are legible. -/
def Phrase.legible : {α : Type} → Phrase α → Bool
  | _, .token terminal => terminal.legible
  | _, .reference _ => true
  | _, .sequence first second | _, .choice first second => first.legible && second.legible
  | _, .optional body | _, .many body | _, .flagged _ body | _, .operation body | _, .map _ body
  | _, .located _ body => body.legible

theorem definition_legible (symbol : Nonterminal α) : (definition symbol).legible = true := by
  cases symbol <;> decide

theorem Terminal.misses_legible {name : RuleName} {terminal : Terminal α} {token : Option Token}
    (legible : terminal.legible = true) :
    ∀ miss ∈ terminal.misses name token, miss.expected.legible = true := by
  cases terminal <;> rcases token with _ | token <;>
    simp_all [misses, Terminal.legible, Expectation.legible]
  split <;> simp

/-- All notes of the grammar are legible. -/
theorem Run.legible {name : RuleName} {phrase : Phrase α} {tokens : List Token}
    {misses : List Miss} {found : Option (α × Nat)} (run : Run name phrase tokens misses found) :
    phrase.legible = true → ∀ miss ∈ misses, miss.expected.legible = true := by
  induction run with
  | token _ => exact fun _ => List.forall_mem_nil _
  | tokenMissed _ => exact Terminal.misses_legible
  | reference _ ih => exact fun _ => ih (definition_legible _)
  | sequenceMissed _ ih | choiceFirst _ ih => exact fun both => ih (Bool.and_eq_true_iff.mp both).1
  | sequence _ _ left right =>
      intro both
      obtain ⟨first, second⟩ := Bool.and_eq_true_iff.mp both
      exact List.forall_mem_append.mpr ⟨left first, List.forall_mem_map.mpr (right second)⟩
  | choiceSecond _ _ left right =>
      intro both
      obtain ⟨first, second⟩ := Bool.and_eq_true_iff.mp both
      exact List.forall_mem_append.mpr ⟨left first, right second⟩
  | many _ _ _ inner others =>
      exact fun legible =>
        List.forall_mem_append.mpr ⟨inner legible, List.forall_mem_map.mpr (others legible)⟩
  | flagged _ _ ih | operation _ _ _ ih =>
      exact fun legible => List.forall_mem_map.mpr (ih legible)
  | operationMissed _ => exact fun _ => List.forall_mem_singleton.mpr rfl
  | optional _ ih | optionalMissed _ ih | manyEnd _ ih | flaggedUnset _ _ _ ih | map _ ih
  | located _ _ ih => exact ih

end Peg

namespace Furthest

/-- The notes that point to a place, in their order. -/
def pointingTo (misses : List Miss) (place : Nat) : List Miss :=
  misses.filter fun miss => miss.position = place

/-- The rule that stands for several ones: the first that is no lookahead, or else the first. -/
def leadingRule (rules : List RuleName) : Option RuleName :=
  (rules.find? fun rule => !rule.isLookahead).or rules.head?

/-- What a record has to say when it sums up a row of notes. -/
structure Summarizes (record : Furthest) (misses : List Miss) : Prop where
  position : (misses.map Miss.position).max? = some record.position
  expected : record.expected = ((pointingTo misses record.position).map Miss.expected).eraseDups
  rule : leadingRule ((pointingTo misses record.position).map Miss.rule) = some record.rule
  literal : record.literal = (pointingTo misses record.position).any Miss.literal

/-! ## One more note -/

section Notes

variable {misses : List Miss} {miss : Miss} {place : Nat}

theorem pointingTo_concat_of_eq (here : miss.position = place) :
    pointingTo (misses ++ [miss]) place = pointingTo misses place ++ [miss] := by
  simp [pointingTo, here]

theorem pointingTo_concat_of_ne (elsewhere : miss.position ≠ place) :
    pointingTo (misses ++ [miss]) place = pointingTo misses place := by
  simp [pointingTo, elsewhere]

theorem pointingTo_eq_nil (before : ∀ miss ∈ misses, miss.position < place) :
    pointingTo misses place = [] :=
  List.filter_eq_nil_iff.mpr fun miss member => by simpa using Nat.ne_of_lt (before miss member)

theorem max?_position_eq_some_iff :
    (misses.map Miss.position).max? = some place ↔
      (∃ miss ∈ misses, miss.position = place) ∧ ∀ miss ∈ misses, miss.position ≤ place := by
  rw [List.max?_eq_some_iff, List.mem_map, List.forall_mem_map]

end Notes

/-- One more rule takes the lead from a lookahead if it is none itself. -/
theorem leadingRule_concat {rules : List RuleName} {leading : RuleName}
    (leads : leadingRule rules = some leading) (rule : RuleName) :
    leadingRule (rules ++ [rule]) =
      some (if leading.isLookahead && !rule.isLookahead then rule else leading) := by
  obtain ⟨first, rest, rfl⟩ : ∃ first rest, rules = first :: rest := by
    rcases rules with _ | ⟨first, rest⟩
    · cases leads
    · exact ⟨first, rest, rfl⟩
  rw [leadingRule, List.find?_append]
  rcases found : (first :: rest).find? fun rule => !rule.isLookahead with _ | proper
  · -- All rules so far are lookaheads, so the first of them leads.
    rw [leadingRule, found, Option.none_or, List.head?_cons, Option.some.injEq] at leads
    have look : first.isLookahead = true := by
      simpa using List.find?_eq_none.mp found first List.mem_cons_self
    subst leads
    rw [found, Option.none_or]
    rcases kind : rule.isLookahead <;> simp [kind, look]
  · rw [leadingRule, found, Option.some_or, Option.some.injEq] at leads
    have plain : proper.isLookahead = false := by simpa using List.find?_some found
    subst leads
    rw [found, Option.some_or, Option.some_or, plain]
    rfl

theorem eraseDups_concat {α : Type} [BEq α] [LawfulBEq α] (items : List α) (item : α) :
    (items ++ [item]).eraseDups =
      if items.contains item then items.eraseDups else items.eraseDups ++ [item] := by
  rw [List.eraseDups_append, List.removeAll]
  by_cases member : item ∈ items <;> simp [member, List.eraseDups_cons]

/-- Telling items apart, a map keeps which of them are repeated. -/
theorem eraseDups_map {α β : Type} [BEq α] [LawfulBEq α] [BEq β] [LawfulBEq β] {label : α → β}
    {items : List α}
    (apart : ∀ first ∈ items, ∀ second ∈ items, label first = label second → first = second) :
    (items.map label).eraseDups = items.eraseDups.map label := by
  induction items using List.reverseRecOn with
  | nil => simp
  | append_singleton items item ih =>
      simp only [List.mem_append, List.mem_singleton] at apart
      have known : label item ∈ items.map label ↔ item ∈ items := by
        refine ⟨fun member => ?_, List.mem_map_of_mem⟩
        obtain ⟨other, inside, same⟩ := List.mem_map.mp member
        exact apart other (.inl inside) item (.inr rfl) same ▸ inside
      have before := ih fun first member second also => apart first (.inl member) second (.inl also)
      rw [List.map_append, List.map_singleton, eraseDups_concat, eraseDups_concat, before]
      by_cases member : item ∈ items <;> simp [member, known]

namespace Summarizes

variable {record : Furthest} {misses : List Miss} {miss : Miss}

theorem single (miss : Miss) : (ofMiss miss).Summarizes [miss] where
  position := rfl
  expected := by simp [pointingTo, ofMiss, List.eraseDups_cons]
  rule := by rcases look : miss.rule.isLookahead <;> simp [pointingTo, ofMiss, leadingRule, look]
  literal := by simp [pointingTo, ofMiss]

theorem le (summary : record.Summarizes misses) :
    ∀ miss ∈ misses, miss.position ≤ record.position :=
  (max?_position_eq_some_iff.mp summary.position).2

theorem there (summary : record.Summarizes misses) :
    ∃ miss ∈ misses, miss.position = record.position :=
  (max?_position_eq_some_iff.mp summary.position).1

/-- A note before the furthest place changes nothing. -/
theorem before (summary : record.Summarizes misses) (before : miss.position < record.position) :
    record.Summarizes (misses ++ [miss]) := by
  have notes : pointingTo (misses ++ [miss]) record.position = pointingTo misses record.position :=
    pointingTo_concat_of_ne (Nat.ne_of_lt before)
  refine ⟨max?_position_eq_some_iff.mpr ⟨?_, ?_⟩, ?_, ?_, ?_⟩
  · obtain ⟨last, member, place⟩ := summary.there
    exact ⟨last, List.mem_append_left _ member, place⟩
  · exact List.forall_mem_append.mpr
      ⟨summary.le, List.forall_mem_singleton.mpr (Nat.le_of_lt before)⟩
  · rw [notes, summary.expected]
  · rw [notes, summary.rule]
  · rw [notes, summary.literal]

/-- A note at the furthest place is merged. -/
theorem merge (summary : record.Summarizes misses) (here : miss.position = record.position) :
    (record.merge miss).Summarizes (misses ++ [miss]) := by
  have notes : pointingTo (misses ++ [miss]) (record.merge miss).position =
      pointingTo misses record.position ++ [miss] := pointingTo_concat_of_eq here
  refine ⟨max?_position_eq_some_iff.mpr ⟨?_, ?_⟩, ?_, ?_, ?_⟩
  · exact ⟨miss, List.mem_append_right _ (List.mem_singleton_self miss), here⟩
  · exact List.forall_mem_append.mpr
      ⟨summary.le, List.forall_mem_singleton.mpr (Nat.le_of_eq here)⟩
  · rw [notes, List.map_append, List.map_singleton, eraseDups_concat, ← summary.expected]
    simp only [Furthest.merge, summary.expected, List.contains_iff_mem, List.mem_eraseDups]
  · rw [notes, List.map_append, List.map_singleton, leadingRule_concat summary.rule]
    rfl
  · rw [notes, List.any_append, ← summary.literal]
    simp [Furthest.merge]

/-- A note behind the furthest place starts the summary anew. -/
theorem behind (summary : record.Summarizes misses) (behind : record.position < miss.position) :
    (ofMiss miss).Summarizes (misses ++ [miss]) := by
  have none : pointingTo misses miss.position = [] :=
    pointingTo_eq_nil fun other member => Nat.lt_of_le_of_lt (summary.le other member) behind
  have notes : pointingTo (misses ++ [miss]) miss.position = pointingTo [miss] miss.position := by
    rw [pointingTo_concat_of_eq rfl, none]
    simp [pointingTo]
  have alone := single miss
  refine ⟨max?_position_eq_some_iff.mpr ⟨?_, ?_⟩, ?_, ?_, ?_⟩
  · exact ⟨miss, List.mem_append_right _ (List.mem_singleton_self miss), rfl⟩
  · exact List.forall_mem_append.mpr
      ⟨fun other member => Nat.le_of_lt (Nat.lt_of_le_of_lt (summary.le other member) behind),
        List.forall_mem_singleton.mpr (Nat.le_refl _)⟩
  · exact alone.expected.trans
      (congrArg (fun notes => (notes.map Miss.expected).eraseDups) notes.symm)
  · exact (congrArg (fun notes => leadingRule (notes.map Miss.rule)) notes).trans alone.rule
  · exact alone.literal.trans (congrArg (fun notes => notes.any Miss.literal) notes.symm)

/-- There is at most one summary of a row of notes. -/
theorem unique {other : Furthest} (summary : record.Summarizes misses)
    (also : other.Summarizes misses) : record = other := by
  have place : record.position = other.position :=
    Option.some.inj (summary.position.symm.trans also.position)
  have rule : record.rule = other.rule :=
    Option.some.inj (summary.rule.symm.trans (place ▸ also.rule))
  have expected : record.expected = other.expected :=
    summary.expected.trans (place ▸ also.expected.symm)
  have literal : record.literal = other.literal :=
    summary.literal.trans (place ▸ also.literal.symm)
  cases record
  cases other
  simp_all

/-- Where labels tell apart what was wanted, none of them is repeated either. -/
theorem labels (summary : record.Summarizes misses)
    (legible : ∀ miss ∈ misses, miss.expected.legible = true) :
    record.expected.map Expectation.text =
      ((pointingTo misses record.position).map fun miss => miss.expected.text).eraseDups := by
  have inside : ∀ expected ∈ (pointingTo misses record.position).map Miss.expected,
      expected.legible = true :=
    List.forall_mem_map.mpr fun miss member => legible miss (List.mem_of_mem_filter member)
  rw [summary.expected, ← eraseDups_map, List.map_map]
  · rfl
  · exact fun first member second also =>
      Expectation.eq_of_text_eq (inside first member) (inside second also)

end Summarizes

/-! ## All notes -/

/-- What a record summed up, the next record sums up together with the next note. -/
theorem record_summarizes {known : Furthest} {misses : List Miss}
    (summary : known.Summarizes misses) (miss : Miss) :
    ∃ record, Furthest.record (some known) miss = some record ∧
      record.Summarizes (misses ++ [miss]) := by
  rw [Furthest.record]
  split
  case isTrue before => exact ⟨known, rfl, summary.before before⟩
  case isFalse notBefore =>
    split
    case isTrue here => exact ⟨_, rfl, summary.merge here⟩
    case isFalse => exact ⟨_, rfl, summary.behind (by omega)⟩

/-- Going over some notes, a record sums up what it knew and all of them. -/
theorem recordAll_summarizes (misses : List Miss) :
    ∀ {known : Furthest} {before : List Miss}, known.Summarizes before →
      ∃ record, recordAll (some known) misses = some record ∧
        record.Summarizes (before ++ misses) := by
  induction misses with
  | nil => exact fun {known _} summary => ⟨known, rfl, by rwa [List.append_nil]⟩
  | cons first rest ih =>
      intro known before summary
      obtain ⟨next, step, again⟩ := record_summarizes summary first
      obtain ⟨record, all, whole⟩ := ih again
      refine ⟨record, ?_, ?_⟩
      · rw [recordAll, List.foldl_cons, step]
        exact all
      · rwa [List.append_assoc, List.singleton_append] at whole

theorem exists_summary (first : Miss) (rest : List Miss) :
    ∃ record, recordAll none (first :: rest) = some record ∧
      record.Summarizes (first :: rest) :=
  recordAll_summarizes rest (.single first)

theorem summarizes_of_recordAll {misses : List Miss} {record : Furthest}
    (all : recordAll none misses = some record) : record.Summarizes misses := by
  rcases misses with _ | ⟨first, rest⟩
  · cases all
  · obtain ⟨other, same, summary⟩ := exists_summary first rest
    rw [all] at same
    cases same
    exact summary

/-- A record that is not literal makes a grammar error. -/
theorem toSyntaxError_code (record : Furthest) (found : Token) :
    (record.toSyntaxError found).code = if record.literal then .literal else .grammar := rfl

/-- Without a failure known before, there is a record exactly when there are notes, and it is the
summary of all of them: it points to the largest place, lists what was wanted there in the order of
first mention and without repetition, and names the first rule there that is no lookahead, or the
first one if all are.  It reports a literal error exactly when a literal was refused there.  Where
the notes are legible, as all notes of declarations are, the labels that it lists are theirs,
without repetition. -/
theorem recordAll_eq_summary (misses : List Miss) :
    (recordAll none misses = none ↔ misses = []) ∧
      (∀ record, recordAll none misses = some record ↔ record.Summarizes misses) ∧
      (∀ record ∈ recordAll none misses, ∀ found, (record.toSyntaxError found).code =
        if (pointingTo misses record.position).any Miss.literal then .literal else .grammar) ∧
      ((∀ miss ∈ misses, miss.expected.legible = true) → ∀ record ∈ recordAll none misses,
        record.expected.map Expectation.text =
          ((pointingTo misses record.position).map fun miss => miss.expected.text).eraseDups) ∧
      ∀ tokens, ∀ miss ∈ (Rule.many Grammar.declaration tokens).misses,
        miss.expected.legible = true := by
  have noted : ∀ tokens, ∀ miss ∈ (Rule.many Grammar.declaration tokens).misses,
      miss.expected.legible = true := fun tokens =>
    (Peg.declarations.run .program rfl tokens).legible rfl
  rcases misses with _ | ⟨first, rest⟩
  · refine ⟨iff_of_true rfl rfl, fun record => iff_of_false nofun fun summary => ?_, nofun, nofun,
      noted⟩
    cases summary.position
  · obtain ⟨record, all, summary⟩ := exists_summary first rest
    rw [all]
    refine ⟨iff_of_false nofun nofun, fun other => ?_, ?_, fun legible => ?_, noted⟩
    · rw [Option.some.injEq]
      exact ⟨fun same => same ▸ summary, summary.unique⟩
    · rintro _ ⟨⟩ found
      rw [toSyntaxError_code, summary.literal]
    · rintro _ ⟨⟩
      exact summary.labels legible

/-- Behind a name, a call and an operator are looked for before the statement asks for its end.
What was wanted at the name itself does not count, though it is noted in between. -/
theorem recordAll_eq_summary_of_semicolon :
    let misses : List Miss := [⟨1, false, .value, .number⟩, ⟨2, false, .call, .mark '('⟩,
      ⟨1, false, .value, .string⟩, ⟨2, false, .expression, .operator⟩,
      ⟨2, false, .statement, .mark ';'⟩, ⟨2, false, .call, .mark '('⟩]
    let record : Furthest := ⟨2, false, .statement, [.mark '(', .operator, .mark ';']⟩
    recordAll none misses = some record ∧ record.Summarizes misses ∧
      ["'('", "operator", "';'"] = ["'('", "operator", "';'", "'('"].eraseDups := by
  intro misses record
  obtain ⟨_, summary, _, labels, _⟩ := recordAll_eq_summary misses
  have all : recordAll none misses = some record := by decide
  exact ⟨all, (summary record).mp all, labels (by decide) record all⟩

end Furthest

end CollectionSchema
