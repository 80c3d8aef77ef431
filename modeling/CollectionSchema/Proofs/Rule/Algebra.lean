import CollectionSchema.Grammar.Declaration

/-!
# The algebra of rules

Rules form a lawful monad, so a rule that is written as a sequence can be
rearranged without changing what it takes or which notes it leaves.  A list of
alternatives can be grouped, and the two shapes of list that the grammar knows,
with commas and in braces, are sequences of simpler rules.

A rule that refers to itself only behind a token is a fixed point: it is equal
to its own body.  The depth that `Rule.fix` computes from the number of tokens
therefore never shows.  This is proved by comparing two rules on all lists that
are shorter than a bound, and a reference behind a token is compared on shorter
lists than the rule that makes it.
-/

set_option autoImplicit false

namespace CollectionSchema

/-! ## Notes that are counted from further back -/

@[simp] theorem Miss.shift_zero (miss : Miss) : miss.shift 0 = miss := by
  simp only [Miss.shift, Nat.zero_add]

@[simp] theorem Miss.shift_shift (outer inner : Nat) (miss : Miss) :
    (miss.shift inner).shift outer = miss.shift (outer + inner) := by
  simp only [Miss.shift, Nat.add_assoc]

@[simp] theorem Miss.shift_position (distance : Nat) (miss : Miss) :
    (miss.shift distance).position = distance + miss.position := rfl

@[simp] theorem Miss.map_shift_zero (misses : List Miss) : misses.map (Miss.shift 0) = misses := by
  have same : Miss.shift 0 = id := funext Miss.shift_zero
  rw [same, List.map_id]

namespace Rule

variable {α β γ : Type}

/-! ## Rules in sequence -/

theorem pure_apply (value : α) (tokens : List Token) :
    (pure value : Rule α) tokens = ⟨[], some (value, 0)⟩ := rfl

theorem bind_of_missed {first : Rule α} {second : α → Rule β} {tokens : List Token}
    {misses : List Miss} (reply : first tokens = ⟨misses, none⟩) :
    (first >>= second) tokens = ⟨misses, none⟩ := by
  show andThen first second tokens = _
  rw [andThen, reply]

theorem bind_of_found {first : Rule α} {second : α → Rule β} {tokens : List Token}
    {misses : List Miss} {value : α} {taken : Nat}
    (reply : first tokens = ⟨misses, some (value, taken)⟩) :
    (first >>= second) tokens =
      ⟨misses ++ (second value (tokens.drop taken)).misses.map (Miss.shift taken),
        (second value (tokens.drop taken)).found.map fun result =>
          (result.1, taken + result.2)⟩ := by
  show andThen first second tokens = _
  rw [andThen, reply]

theorem bind_pure' (first : Rule α) : first >>= pure = first := by
  funext tokens
  rcases reply : first tokens with ⟨misses, _ | ⟨value, taken⟩⟩
  · exact bind_of_missed reply
  · rw [bind_of_found reply]
    simp [pure_apply]

theorem pure_bind' (value : α) (second : α → Rule β) : pure value >>= second = second value := by
  funext tokens
  rw [bind_of_found (pure_apply value tokens)]
  rcases later : second value tokens with ⟨misses, found⟩
  simp [later]

theorem bind_assoc' (first : Rule α) (second : α → Rule β) (third : β → Rule γ) :
    first >>= second >>= third = first >>= fun value => second value >>= third := by
  funext tokens
  rcases reply : first tokens with ⟨misses, _ | ⟨value, taken⟩⟩
  · rw [bind_of_missed reply, bind_of_missed (bind_of_missed reply)]
  · rw [bind_of_found reply]
    rcases later : second value (tokens.drop taken) with ⟨laterMisses, _ | ⟨result, more⟩⟩
    · rw [bind_of_missed later]
      refine bind_of_missed ?_
      rw [bind_of_found reply, later]
      rfl
    · rw [bind_of_found later]
      have front : (first >>= second) tokens = ⟨misses ++ laterMisses.map (Miss.shift taken),
          some (result, taken + more)⟩ := by
        rw [bind_of_found reply, later]
        rfl
      rw [bind_of_found front]
      simp only [List.drop_drop, List.map_append, List.map_map, List.append_assoc, Option.map_map,
        Function.comp_def, Miss.shift_shift, Nat.add_assoc]

instance : LawfulMonad Rule :=
  LawfulMonad.mk' Rule (fun first => bind_pure' first) pure_bind' bind_assoc'

theorem bind_pure_apply (first : Rule α) (build : α → β) (tokens : List Token) :
    (first >>= fun value => pure (build value)) tokens =
      ⟨(first tokens).misses,
        (first tokens).found.map fun result => (build result.1, result.2)⟩ := by
  rcases reply : first tokens with ⟨misses, _ | ⟨value, taken⟩⟩
  · rw [bind_of_missed reply]
    rfl
  · rw [bind_of_found reply]
    simp [pure_apply]

/-- Making something of the value that a token stands for is making it of the token. -/
theorem accept_bind_pure (name : RuleName) (expected : List Expectation) (read : Token → Option α)
    (build : α → β) :
    (accept name expected read >>= fun value => pure (build value)) =
      accept name expected fun token => (read token).map build := by
  funext tokens
  have built : (tokens.head?.bind fun token => (read token).map build) =
      (tokens.head?.bind read).map build := by
    rcases tokens.head? with _ | token <;> rfl
  rcases seen : tokens.head?.bind read with _ | value
  · have reply : accept name expected read tokens =
        ⟨expected.map fun wanted => ⟨0, false, name, wanted⟩, none⟩ := by
      simp only [accept, seen]
    rw [bind_of_missed reply]
    simp only [accept, built, seen, Option.map_none]
  · have reply : accept name expected read tokens = ⟨[], some (value, 1)⟩ := by
      simp only [accept, seen]
    rw [bind_of_found reply]
    simp only [accept, built, seen, Option.map_some]
    rfl

/-! ## Alternatives -/

theorem oneOf_of_found {first : Rule α} {others : List (Rule α)} {tokens : List Token}
    {misses : List Miss} {result : α × Nat} (reply : first tokens = ⟨misses, some result⟩) :
    oneOf (first :: others) tokens = ⟨misses, some result⟩ := by
  rw [oneOf, reply]

theorem oneOf_of_missed {first : Rule α} {others : List (Rule α)} {tokens : List Token}
    {misses : List Miss} (reply : first tokens = ⟨misses, none⟩) :
    oneOf (first :: others) tokens =
      ⟨misses ++ (oneOf others tokens).misses, (oneOf others tokens).found⟩ := by
  rw [oneOf, reply]

theorem oneOf_single (only : Rule α) : oneOf [only] = only := by
  funext tokens
  have none : oneOf ([] : List (Rule α)) tokens = ⟨[], none⟩ := rfl
  rcases reply : only tokens with ⟨misses, _ | result⟩
  · rw [oneOf_of_missed reply, none, List.append_nil]
  · exact oneOf_of_found reply

/-- Alternatives can be grouped, as long as their order stays. -/
theorem oneOf_append (firsts others : List (Rule α)) :
    oneOf (firsts ++ others) = oneOf [oneOf firsts, oneOf others] := by
  funext tokens
  induction firsts with
  | nil =>
      have empty : oneOf ([] : List (Rule α)) tokens = ⟨[], none⟩ := rfl
      rw [oneOf_of_missed empty, oneOf_single]
      rfl
  | cons first firsts ih =>
      rcases reply : first tokens with ⟨misses, _ | result⟩
      · rw [List.cons_append, oneOf_of_missed reply, ih]
        rcases later : oneOf firsts tokens with ⟨laterMisses, _ | result⟩
        · rw [oneOf_of_missed later, oneOf_of_missed
            (by rw [oneOf_of_missed reply, later] : oneOf (first :: firsts) tokens = _)]
          simp only [List.append_assoc]
        · rw [oneOf_of_found later, oneOf_of_found
            (by rw [oneOf_of_missed reply, later] : oneOf (first :: firsts) tokens = _)]
      · rw [List.cons_append, oneOf_of_found reply, oneOf_of_found (oneOf_of_found reply)]

theorem oneOf_cons (first second : Rule α) (others : List (Rule α)) :
    oneOf (first :: second :: others) = oneOf [first, oneOf (second :: others)] := by
  have grouped := oneOf_append [first] (second :: others)
  rwa [oneOf_single] at grouped

/-- The next place can be looked up before the alternatives or in each of them. -/
theorem here_bind_apply (next : Position → Rule α) (tokens : List Token) :
    (here >>= next) tokens =
      next ((tokens.head?.map Token.position).getD Position.start) tokens := by
  have place : here tokens =
      ⟨[], some ((tokens.head?.map Token.position).getD Position.start, 0)⟩ := rfl
  rw [bind_of_found place]
  rcases later : next ((tokens.head?.map Token.position).getD Position.start) tokens with
    ⟨misses, found⟩
  simp [later, Miss.map_shift_zero]

theorem here_bind_oneOf (alternatives : List (Position → Rule α)) :
    (here >>= fun position => oneOf (alternatives.map fun next => next position)) =
      oneOf (alternatives.map fun next => here >>= next) := by
  funext tokens
  rw [here_bind_apply]
  induction alternatives with
  | nil => rfl
  | cons next others ih => simp only [List.map_cons, oneOf, here_bind_apply, ih]

/-! ## Options and lists -/

theorem optional_of_found {rule : Rule α} {tokens : List Token} {misses : List Miss} {value : α}
    {taken : Nat} (reply : rule tokens = ⟨misses, some (value, taken)⟩) :
    optional rule tokens = ⟨misses, some (some value, taken)⟩ := by
  rw [optional, reply]

theorem optional_of_missed {rule : Rule α} {tokens : List Token} {misses : List Miss}
    (reply : rule tokens = ⟨misses, none⟩) :
    optional rule tokens = ⟨misses, some (none, 0)⟩ := by
  rw [optional, reply]

theorem atMost_of_missed {rule : Rule α} {tokens : List Token} {misses : List Miss} (bound : Nat)
    (reply : rule tokens = ⟨misses, none⟩) :
    atMost rule (bound + 1) tokens = ⟨misses, some ([], 0)⟩ := by
  simp only [atMost, reply]

theorem atMost_of_found {rule : Rule α} {tokens : List Token} {misses : List Miss} {value : α}
    {taken : Nat} (bound : Nat) (reply : rule tokens = ⟨misses, some (value, taken)⟩)
    (progress : 0 < taken) :
    atMost rule (bound + 1) tokens =
      ⟨misses ++ (atMost rule bound (tokens.drop taken)).misses.map (Miss.shift taken),
        (atMost rule bound (tokens.drop taken)).found.map fun result =>
          (value :: result.1, taken + result.2)⟩ := by
  simp only [atMost, reply, if_neg (Nat.ne_of_gt progress)]

/-- A repetition always matches, if only with an empty list. -/
theorem atMost_isSome (rule : Rule α) (bound : Nat) (tokens : List Token) :
    (atMost rule bound tokens).found.isSome = true := by
  induction bound generalizing tokens with
  | zero => rfl
  | succ bound ih =>
      rcases reply : rule tokens with ⟨misses, _ | ⟨value, taken⟩⟩
      · rw [atMost_of_missed bound reply]
        rfl
      · rcases Nat.eq_zero_or_pos taken with none | progress
        · simp [atMost, reply, none]
        · rw [atMost_of_found bound reply progress]
          simpa using ih (tokens.drop taken)

theorem many_isSome (rule : Rule α) (tokens : List Token) :
    (many rule tokens).found.isSome = true :=
  atMost_isSome rule _ tokens

/-- A list with commas is an optional sequence of a first item and of commas with an item behind
each. -/
theorem separated_eq (name : RuleName) (rule : Rule α) :
    separated name rule =
      (optional (rule >>= fun first => many (mark name ',' >>= fun _ => rule) >>= fun others =>
        pure (first :: others))) >>= fun items => pure (items.getD []) := by
  funext tokens
  rcases reply : rule tokens with ⟨misses, _ | ⟨value, taken⟩⟩
  · rw [separated, bind_of_found (optional_of_missed reply),
      bind_of_found (optional_of_missed (bind_of_missed reply))]
    rfl
  · rw [separated, bind_of_found (optional_of_found reply)]
    obtain ⟨⟨others, more⟩, found⟩ := Option.isSome_iff_exists.mp
      (many_isSome (mark name ',' >>= fun _ => rule) (tokens.drop taken))
    rcases list : many (mark name ',' >>= fun _ => rule) (tokens.drop taken) with ⟨later, _⟩
    rw [list] at found
    cases found
    have rest : (many (mark name ',' >>= fun _ => rule) >>= fun others => pure (value :: others))
        (tokens.drop taken) = ⟨later, some (value :: others, more)⟩ := by
      rw [bind_of_found list]
      simp [pure_apply]
    have whole : (rule >>= fun first => many (mark name ',' >>= fun _ => rule) >>= fun others =>
        pure (first :: others)) tokens =
        ⟨misses ++ later.map (Miss.shift taken), some (value :: others, taken + more)⟩ := by
      rw [bind_of_found reply, rest]
      rfl
    rw [bind_of_found (optional_of_found whole)]
    refine (congrArg (fun reply : Reply (List α) =>
      Reply.mk (misses ++ reply.misses.map (Miss.shift taken))
        (reply.found.map fun result => (result.1, taken + result.2))) rest).trans ?_
    simp [pure_apply]

end Rule

end CollectionSchema
