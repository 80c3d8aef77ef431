import CollectionSchema.Proofs.Peg.Run

/-!
# What a run depends on

A run looks at the tokens that it takes and at those that its notes point to, and
at nothing behind them.  So it is a run on every other list that starts with the
same tokens.

The one place where the grammar looks two tokens ahead is the second mark of an
operator.  It makes no exception: behind an operator stands an operand, which
either takes a token or leaves a note about it.
-/

set_option autoImplicit false

namespace CollectionSchema.Peg

variable {α β : Type}

/-- All notes point to one of the first tokens, and no more than these tokens are taken. -/
structure Within (depth : Nat) (misses : List Miss) (found : Option (α × Nat)) : Prop where
  noted : ∀ miss ∈ misses, miss.position < depth
  taken : ∀ value count, found = some (value, count) → count ≤ depth

namespace Within

variable {depth : Nat} {misses later : List Miss} {found : Option (α × Nat)}

theorem missed (noted : ∀ miss ∈ misses, miss.position < depth) :
    Within (α := α) depth misses none :=
  ⟨noted, fun _ _ matched => nomatch matched⟩

theorem first (within : Within depth (misses ++ later) found) :
    ∀ miss ∈ misses, miss.position < depth :=
  fun miss member => within.noted miss (List.mem_append_left later member)

theorem second (within : Within depth (misses ++ later) found) : Within depth later found :=
  ⟨fun miss member => within.noted miss (List.mem_append_right misses member), within.taken⟩

theorem unshift {build : α → β} (within : Within depth misses (further build 0 found)) :
    Within depth misses found := by
  refine ⟨within.noted, fun value count matched => ?_⟩
  subst matched
  simpa using within.taken _ _ rfl

end Within

namespace Run

variable {name : RuleName} {phrase : Phrase α} {tokens : List Token} {misses : List Miss}
  {found : Option (α × Nat)} {depth : Nat}

/-- What is taken in front of a run lies in front of everything that the run notes or takes. -/
theorem behind_le (run : Run name phrase tokens misses found) (build : α → β) {taken place : Nat}
    (noted : ∀ miss ∈ misses.map (Miss.shift taken), miss.position ≤ place)
    (counted : ∀ value count, further build taken found = some (value, count) → count ≤ place) :
    taken ≤ place := by
  rcases found with _ | ⟨value, count⟩
  · obtain ⟨miss, member⟩ := List.exists_mem_of_ne_nil misses (run.noted rfl)
    exact Nat.le_trans (Nat.le_add_right taken _) (noted _ (List.mem_map_of_mem member))
  · exact Nat.le_trans (Nat.le_add_right taken count) (counted _ _ rfl)

/-- A run behind some tokens that stays within a depth has these tokens within it. -/
theorem within_behind (run : Run name phrase tokens misses found) (build : α → β) {taken : Nat}
    (within : Within depth (misses.map (Miss.shift taken)) (further build taken found)) :
    taken ≤ depth ∧ Within (depth - taken) misses found := by
  have le := run.behind_le build (fun miss member => Nat.le_of_lt (within.noted miss member))
    within.taken
  refine ⟨le, fun miss member => ?_, fun value count matched => ?_⟩
  · have := within.noted _ (List.mem_map_of_mem member)
    rw [Miss.shift_position] at this
    omega
  · subst matched
    have := within.taken _ _ rfl
    omega

/-- A run of a phrase that consumes looks at the first token. -/
theorem within_pos (run : Run name phrase tokens misses found)
    (consumes : phrase.consumes = true) (within : Within depth misses found) : 0 < depth := by
  rcases found with _ | ⟨value, count⟩
  · obtain ⟨miss, member⟩ := List.exists_mem_of_ne_nil misses (run.noted rfl)
    exact Nat.zero_lt_of_lt (within.noted miss member)
  · exact Nat.lt_of_lt_of_le (run.progress consumes rfl) (within.taken value count rfl)

end Run

section Lists

variable {tokens others : List Token} {depth : Nat}

theorem head_of_take (positive : 0 < depth) (same : others.take depth = tokens.take depth) :
    others.head? = tokens.head? := by
  have heads := congrArg List.head? same
  have given := Nat.ne_of_gt positive
  rwa [List.head?_take, List.head?_take, if_neg given, if_neg given] at heads

theorem take_of_take {fewer : Nat} (le : fewer ≤ depth)
    (same : others.take depth = tokens.take depth) : others.take fewer = tokens.take fewer := by
  have start := congrArg (List.take fewer) same
  rwa [List.take_take, List.take_take, Nat.min_eq_left le] at start

theorem drop_of_take (same : others.take depth = tokens.take depth) (count : Nat) :
    (others.drop count).take (depth - count) = (tokens.drop count).take (depth - count) := by
  rw [← List.drop_take, same, List.drop_take]

end Lists

/-! ## Moving a run to another list -/

namespace Run

variable {name : RuleName} {phrase : Phrase α} {tokens : List Token} {misses : List Miss}
  {found : Option (α × Nat)}

/-- A run within the first tokens is a run on every list that starts with them. -/
theorem steady (run : Run name phrase tokens misses found) : ∀ {depth : Nat} {others : List Token},
    Within depth misses found → others.take depth = tokens.take depth →
      Run name phrase others misses found := by
  induction run with
  | @token _ _ _ first rest _ read =>
      intro depth others within same
      have head := head_of_take (within.taken _ _ rfl) same
      obtain ⟨behind, rfl⟩ := List.head?_eq_some_iff.mp head
      exact .token read
  | @tokenMissed _ name terminal tokens unread =>
      intro depth others within same
      obtain ⟨miss, member⟩ := List.exists_mem_of_ne_nil _
        (Terminal.misses_ne_nil name terminal tokens.head?)
      have head := head_of_take (Nat.zero_lt_of_lt (within.noted miss member)) same
      rw [← head] at unread ⊢
      exact .tokenMissed unread
  | reference _ ih => exact fun within same => .reference (ih within same)
  | sequenceMissed _ ih =>
      exact fun within same => .sequenceMissed (ih (.missed within.noted) same)
  | sequence left right ihLeft ihRight =>
      intro depth others within same
      obtain ⟨le, behind⟩ := right.within_behind _ within.second
      exact .sequence (ihLeft ⟨within.first, by rintro _ _ ⟨⟩; exact le⟩ same)
        (ihRight behind (drop_of_take same _))
  | choiceFirst _ ih => exact fun within same => .choiceFirst (ih within same)
  | choiceSecond _ _ ihLeft ihRight =>
      intro depth others within same
      exact .choiceSecond (ihLeft (.missed within.first) same) (ihRight within.second same)
  | optional _ ih =>
      intro depth others within same
      exact .optional (ih ⟨within.noted, by rintro _ _ ⟨⟩; exact within.taken _ _ rfl⟩ same)
  | optionalMissed _ ih =>
      exact fun within same => .optionalMissed (ih (.missed within.noted) same)
  | manyEnd _ ih => exact fun within same => .manyEnd (ih (.missed within.noted) same)
  | @many _ _ _ _ _ _ item _ _ _ consumes _ others ihInner ihOthers =>
      intro depth tokens within same
      obtain ⟨le, behind⟩ := others.within_behind (fun items => item :: items) within.second
      exact .many consumes (ihInner ⟨within.first, by rintro _ _ ⟨⟩; exact le⟩ same)
        (ihOthers behind (drop_of_take same _))
  | flagged set inner ih =>
      intro depth others within same
      obtain ⟨le, behind⟩ := inner.within_behind _ within
      obtain ⟨rest, rfl⟩ := List.head?_eq_some_iff.mp (head_of_take le same)
      exact .flagged set (ih behind (drop_of_take same 1))
  | flaggedUnset consumes unset inner ih =>
      intro depth others within same
      have head := head_of_take (inner.within_pos consumes within.unshift) same
      exact .flaggedUnset consumes (by rwa [head]) (ih within.unshift same)
  | operationMissed unread =>
      intro depth others within same
      have head := head_of_take (within.noted _ (List.mem_singleton_self _)) same
      exact .operationMissed (look_operator_eq_none_iff.mpr
        (by rw [head]; exact look_operator_eq_none_iff.mp unread))
  | operation consumes read inner ih =>
      intro depth others within same
      obtain ⟨le, behind⟩ := inner.within_behind _ within
      have more := inner.within_pos consumes behind
      exact .operation consumes (look_operator_congr read (take_of_take (by omega) same))
        (ih behind (drop_of_take same _))
  | map _ ih => exact fun within same => .map (ih within.unshift same)
  | located consumes inner ih =>
      intro depth others within same
      have head := head_of_take (inner.within_pos consumes within.unshift) same
      rw [← head]
      exact .located consumes (ih within.unshift same)

end Run

end CollectionSchema.Peg
