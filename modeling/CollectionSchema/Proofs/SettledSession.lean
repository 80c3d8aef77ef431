import CollectionSchema.Proofs.Peg.Inversion
import CollectionSchema.Proofs.RepeatedParse

/-!
# The first answer of a session is final

A session that has failed fails again with the very same error, and a session that
has succeeded finds nothing more to read.  The second call starts at the cursor that
the first one left, where no declaration stands.  It makes the notes again that the
first call made there last, and the furthest failure has taken these into account
already.  So the record absorbs them: it is the same record afterwards
(`Furthest.recordAll_of_absorbs`).
-/

set_option autoImplicit false

namespace CollectionSchema

open Peg (Run declarations)

/-! ## Notes that a record has taken into account -/

namespace Furthest

/-- A record absorbs a note that it says nothing new about: the note points to a token further in
front, or what it says about the token of the record is said there already. -/
structure Absorbs (record : Furthest) (miss : Miss) : Prop where
  position : miss.position ≤ record.position
  literal : miss.position = record.position → miss.literal = true → record.literal = true
  rule : miss.position = record.position → record.rule.isLookahead = true →
    miss.rule.isLookahead = true
  expected : miss.position = record.position → miss.expected ∈ record.expected

theorem record_of_absorbs {record : Furthest} {miss : Miss} (absorbs : record.Absorbs miss) :
    Furthest.record (some record) miss = some record := by
  rw [Furthest.record]
  split
  case isTrue => rfl
  case isFalse reached =>
    have place : miss.position = record.position := by
      have le := absorbs.position
      omega
    have literal : (record.literal || miss.literal) = record.literal := by
      cases known : record.literal with
      | true => rfl
      | false => simpa [known] using absorbs.literal place
    have rule : (record.rule.isLookahead && !miss.rule.isLookahead) = false := by
      cases known : record.rule.isLookahead with
      | true => simp [absorbs.rule place known]
      | false => rfl
    have expected : record.expected.contains miss.expected = true :=
      List.contains_iff_mem.mpr (absorbs.expected place)
    rw [if_pos place]
    simp only [merge, literal, rule, expected, Bool.false_eq_true, if_false, if_true]

/-- Notes that are absorbed one by one leave the record as it is. -/
theorem recordAll_of_absorbs {record : Furthest} {misses : List Miss}
    (absorbs : ∀ miss ∈ misses, record.Absorbs miss) :
    recordAll (some record) misses = some record := by
  induction misses with
  | nil => rfl
  | cons first rest ih =>
      rw [recordAll, List.foldl_cons, record_of_absorbs (absorbs first List.mem_cons_self)]
      exact ih fun miss member => absorbs miss (List.mem_cons_of_mem first member)

/-- A record absorbs the note that it was made of. -/
theorem ofMiss_absorbs (miss : Miss) : (ofMiss miss).Absorbs miss where
  position := Nat.le_refl _
  literal _ set := set
  rule _ looks := looks
  expected _ := List.mem_singleton.mpr rfl

theorem merge_absorbs {known : Furthest} {miss : Miss} (place : miss.position = known.position) :
    (known.merge miss).Absorbs miss where
  position := Nat.le_of_eq place
  literal _ set := by
    show (known.literal || miss.literal) = true
    rw [set, Bool.or_true]
  rule _ looks := by
    cases other : miss.rule.isLookahead with
    | true => rfl
    | false =>
        simp only [merge, other] at looks
        split at looks
        case isTrue => rw [other] at looks; cases looks
        case isFalse stays =>
          rw [looks] at stays
          exact absurd rfl stays
  expected _ := by
    simp only [merge]
    split
    case isTrue listed => exact List.contains_iff_mem.mp listed
    case isFalse => simp

/-- What is absorbed stays absorbed when another note at the same token is merged. -/
theorem Absorbs.merge {known : Furthest} {miss : Miss} (absorbs : known.Absorbs miss)
    (other : Miss) : (known.merge other).Absorbs miss where
  position := absorbs.position
  literal place set := by
    show (known.literal || other.literal) = true
    rw [absorbs.literal place set, Bool.true_or]
  rule place looks := by
    -- The rule gives way only to one that does not look ahead, and then nothing is left to show.
    simp only [Furthest.merge] at looks
    split at looks
    case isTrue gives =>
      rw [looks, Bool.not_true, Bool.and_false] at gives
      cases gives
    case isFalse => exact absorbs.rule place looks
  expected place := by
    have listed := absorbs.expected place
    simp only [Furthest.merge]
    split
    · exact listed
    · exact List.mem_append_left _ listed

/-- One more note is absorbed by the record that it makes, with all that was absorbed before. -/
theorem exists_record_absorbs (known : Option Furthest) (miss : Miss) :
    ∃ record, Furthest.record known miss = some record ∧ record.Absorbs miss ∧
      ∀ before ∈ known, ∀ other, before.Absorbs other → record.Absorbs other := by
  rcases known with _ | known
  · exact ⟨ofMiss miss, rfl, ofMiss_absorbs miss, nofun⟩
  rw [Furthest.record]
  split
  case isTrue before =>
    refine ⟨known, rfl, ⟨Nat.le_of_lt before, ?_, ?_, ?_⟩, ?_⟩
    · intro place
      omega
    · intro place
      omega
    · intro place
      omega
    · rintro _ ⟨⟩ other absorbs
      exact absorbs
  case isFalse =>
    split
    case isTrue place =>
      refine ⟨known.merge miss, rfl, merge_absorbs place, ?_⟩
      rintro _ ⟨⟩ other absorbs
      exact absorbs.merge miss
    case isFalse =>
      refine ⟨ofMiss miss, rfl, ofMiss_absorbs miss, ?_⟩
      rintro _ ⟨⟩ other absorbs
      have le := absorbs.position
      have less : other.position < (ofMiss miss).position := by
        show other.position < miss.position
        omega
      refine ⟨Nat.le_of_lt less, ?_, ?_, ?_⟩
      · intro place
        omega
      · intro place
        omega
      · intro place
        omega

/-- Going over notes ends with a record that absorbs all of them. -/
theorem recordAll_absorbs {misses : List Miss} :
    ∀ {known : Option Furthest} {record : Furthest}, recordAll known misses = some record →
      (∀ miss ∈ misses, record.Absorbs miss) ∧
        ∀ before ∈ known, ∀ other, before.Absorbs other → record.Absorbs other := by
  induction misses with
  | nil =>
      intro known record same
      refine ⟨List.forall_mem_nil _, ?_⟩
      intro before member other absorbs
      rw [Option.mem_def.mp member] at same
      cases same
      exact absorbs
  | cons first rest ih =>
      intro known record same
      obtain ⟨next, step, fresh, still⟩ := exists_record_absorbs known first
      rw [recordAll, List.foldl_cons, step] at same
      obtain ⟨others, kept⟩ := ih same
      refine ⟨?_, ?_⟩
      · intro miss member
        rcases List.mem_cons.mp member with rfl | member
        · exact kept next rfl miss fresh
        · exact others miss member
      · intro before member other absorbs
        exact kept next rfl other (still before member other absorbs)

end Furthest

/-! ## The end of a repetition is reached again -/

namespace Peg

/-- Behind all declarations there is no other one, and the notes that say so were the last ones that
reading the declarations has left. -/
theorem Run.declarations_end {name : RuleName} {found : List Declaration} :
    ∀ {tokens : List Token} {misses : List Miss} {taken : Nat},
      Run name declarations tokens misses (some (found, taken)) →
      ∃ front again, misses = front ++ again.map (Miss.shift taken) ∧
        Run name declarations (tokens.drop taken) again (some ([], 0)) := by
  induction found with
  | nil =>
      intro tokens misses taken run
      rcases run.tried with ⟨_, matched⟩ | ⟨_, _, _, _, _, _, _, _, _, matched⟩
      · obtain ⟨_, rfl⟩ := Prod.mk.inj (Option.some.inj matched)
        exact ⟨[], misses, by rw [Miss.map_shift_zero, List.nil_append], run⟩
      · cases (Prod.mk.inj (Option.some.inj matched)).1
  | cons declaration found ih =>
      intro tokens misses taken run
      rcases run.tried with ⟨_, matched⟩ | ⟨_, _, first, more, front, later, _, outer, rfl, matched⟩
      · cases (Prod.mk.inj (Option.some.inj matched)).1
      · obtain ⟨same, rfl⟩ := Prod.mk.inj (Option.some.inj matched)
        cases same
        obtain ⟨inFront, again, rfl, behind⟩ := ih outer
        refine ⟨front ++ inFront.map (Miss.shift first), again, ?_, ?_⟩
        · rw [List.map_append, List.map_map, ← List.append_assoc]
          congr 2
          funext miss
          rw [Function.comp_apply, Miss.shift_shift]
        · rwa [List.drop_drop] at behind

/-- Where the input ends there is no declaration. -/
theorem Run.declarations_of_end {name : RuleName} {tokens : List Token} {misses : List Miss}
    {found : List Declaration} {taken : Nat}
    (run : Run name declarations tokens misses (some (found, taken)))
    (ended : ∀ first ∈ tokens.head?, first.isEnd = true) : found = [] ∧ taken = 0 := by
  rcases run.tried with ⟨_, matched⟩ | ⟨_, _, first, more, _, _, inner, _, _, _⟩
  · exact Prod.mk.inj (Option.some.inj matched)
  · have some := inner.progress rfl rfl
    obtain ⟨inside, proper⟩ := (inner.passes rfl).mono some
    obtain ⟨token, rest, rfl⟩ := List.exists_cons_of_length_pos inside
    have wrong := proper token (by simp)
    rw [ended token rfl] at wrong
    cases wrong

end Peg

/-! ## A call after a call -/

namespace ParseSession

theorem reported_of_le {known : Furthest} {position : Nat} (le : known.position ≤ position) :
    reported (some known) position = Furthest.declarationAt position :=
  if_pos le

theorem reported_of_lt {known : Furthest} {position : Nat} (further : position < known.position) :
    reported (some known) position = known :=
  if_neg (Nat.not_le_of_lt further)

/-- The record that was reported is reported again when the last notes are made again. -/
theorem reported_again {furthest : Option Furthest} {front again : List Miss} {position : Nat}
    (noted : again ≠ []) :
    let record := reported (Furthest.recordAll furthest (front ++ again)) position
    reported (Furthest.recordAll (some record) again) position = record := by
  intro record
  have split : Furthest.recordAll furthest (front ++ again) =
      Furthest.recordAll (Furthest.recordAll furthest front) again := List.foldl_append
  obtain ⟨known, all⟩ :
      ∃ known, Furthest.recordAll furthest (front ++ again) = some known := by
    rw [split]
    rcases Furthest.recordAll furthest front with _ | before
    · obtain ⟨known, all, _⟩ := Furthest.recordAll_none noted
      exact ⟨known, all⟩
    · obtain ⟨known, all, _⟩ := Furthest.recordAll_position again before
      exact ⟨known, all⟩
  have absorbs : ∀ miss ∈ again, known.Absorbs miss := by
    intro miss member
    exact (Furthest.recordAll_absorbs all).1 miss (List.mem_append_right front member)
  by_cases further : position < known.position
  · have same : record = known := by
      show reported _ position = known
      rw [all, reported_of_lt further]
    rw [same, Furthest.recordAll_of_absorbs absorbs, reported_of_lt further]
  · have le : known.position ≤ position := Nat.le_of_not_lt further
    have same : record = Furthest.declarationAt position := by
      show reported _ position = _
      rw [all, reported_of_le le]
    -- The notes that are made again all point to the cursor, as the record does.
    obtain ⟨merged, total, _, _, place⟩ :=
      Furthest.recordAll_position again (Furthest.declarationAt position)
    have here : merged.position ≤ position := by
      rcases place with place | ⟨miss, member, place⟩
      · exact Nat.le_of_eq place
      · rw [← place]
        exact Nat.le_trans (absorbs miss member).position le
    rw [same, total, reported_of_le here]

/-- A session that has failed is asked again: the answer is the same, and so is the session. -/
theorem parse_again_of_error {session after : ParseSession} {error : SyntaxError}
    (failed : session.parse = (.error error, after)) : after.parse = (.error error, after) := by
  obtain ⟨misses, found, taken, run⟩ := session.exists_run_behind
  obtain ⟨front, again, rfl, behind⟩ := run.declarations_end
  rw [List.drop_drop] at behind
  rw [parse_of_run run] at failed
  simp only at failed
  split at failed
  case isTrue => cases failed
  case isFalse more =>
    obtain ⟨answer, rfl⟩ := Prod.mk.inj failed
    obtain ⟨miss, member, _⟩ := behind.noted_end rfl rfl
    have shifts : (front ++ again.map (Miss.shift taken)).map (Miss.shift session.position) =
        front.map (Miss.shift session.position) ++
          again.map (Miss.shift (session.position + taken)) := by
      rw [List.map_append, List.map_map]
      congr 2
      funext miss
      rw [Function.comp_apply, Miss.shift_shift]
    have noted : again.map (Miss.shift (session.position + taken)) ≠ [] := by
      simpa using List.ne_nil_of_mem member
    have still := @reported_again session.furthest (front.map (Miss.shift session.position)) _
      (session.position + taken) noted
    rw [shifts] at answer ⊢
    generalize reported _ (session.position + taken) = record at answer still ⊢
    rw [parse_of_run behind]
    simp only [Nat.add_zero, still]
    exact (if_neg more).trans (Prod.ext answer rfl)

/-- A session that has succeeded is asked again: there is nothing to read, and the cursor stays. -/
theorem parse_again_of_ok {session : ParseSession}
    (ended : (session.tokenAt session.position).isEnd = true) :
    session.parse.1 = .ok ⟨[]⟩ ∧ session.parse.2.tokens = session.tokens ∧
      session.parse.2.position = session.position := by
  obtain ⟨misses, found, taken, run⟩ := session.exists_run_behind
  have head : ∀ first ∈ (session.tokens.drop session.position).head?, first.isEnd = true := by
    intro first member
    rw [List.head?_drop, Option.mem_def] at member
    rwa [tokenAt, member, Option.getD_some] at ended
  obtain ⟨rfl, rfl⟩ := run.declarations_of_end head
  rw [parse_of_run run]
  simp only [Nat.add_zero, ended, if_true, and_self]

theorem ended_of_parse {session after : ParseSession} {program : Program}
    (parsed : session.parse = (.ok program, after)) :
    (after.tokenAt after.position).isEnd = true := by
  obtain ⟨misses, found, taken, run⟩ := session.exists_run_behind
  rw [parse_of_run run] at parsed
  simp only at parsed
  split at parsed
  case isTrue ended =>
    obtain ⟨_, rfl⟩ := Prod.mk.inj parsed
    exact ended
  case isFalse => cases parsed

/-! ## Any number of calls -/

theorem later_of_error {session after : ParseSession} {error : SyntaxError}
    (failed : session.parse = (.error error, after)) (calls : Nat) :
    session.later (calls + 1) = after := by
  induction calls with
  | zero => exact congrArg Prod.snd failed
  | succ calls ih => rw [later, ih, parse_again_of_error failed]

theorem later_of_ok {session after : ParseSession} {program : Program}
    (parsed : session.parse = (.ok program, after)) (calls : Nat) :
    ((session.later (calls + 1)).tokenAt (session.later (calls + 1)).position).isEnd = true := by
  induction calls with
  | zero =>
      have first : session.later 1 = after := congrArg Prod.snd parsed
      rw [first]
      exact ended_of_parse parsed
  | succ calls ih =>
      obtain ⟨_, sameTokens, samePosition⟩ := parse_again_of_ok ih
      have step : session.later (calls + 1 + 1) = (session.later (calls + 1)).parse.2 := rfl
      rw [step, samePosition, tokenAt, sameTokens]
      exact ih

end ParseSession

/-- Whatever the tokens are, every call behind the first one answers with the error of the first
call, or with the empty program when the first call has read a program. -/
theorem ParseSession.later_settled (tokens : List Token) (calls : Nat) :
    ((ofTokens tokens).later (calls + 1)).parse.1 =
      (CollectionSchema.parse tokens).map fun _ => (⟨[]⟩ : Program) := by
  rcases first : (ofTokens tokens).parse with ⟨error | program, after⟩
  · rw [later_of_error first, parse_again_of_error first, CollectionSchema.parse, first]
    rfl
  · rw [(parse_again_of_ok (later_of_ok first calls)).1, CollectionSchema.parse, first]
    rfl

end CollectionSchema
