import CollectionSchema.Proofs.Peg.Terminal

/-!
# Runs of phrases

A run records how a phrase is tried on some tokens: which alternatives were given
up and which notes they left, what was taken and what was built.  Runs are made by
an inductive relation, with one case for each way in which each form of phrase can
turn out.  So what holds of all phrases is proved by induction over runs.
-/

set_option autoImplicit false

namespace CollectionSchema.Peg

variable {α β : Type}

/-! ## Phrases that can be run -/

namespace Phrase

/-- Whether a match of a phrase always takes a token. -/
def consumes : {α : Type} → Phrase α → Bool
  | _, .token _ | _, .reference _ | _, .operation _ => true
  | _, .sequence first second => first.consumes || second.consumes
  | _, .choice first second => first.consumes && second.consumes
  | _, .optional _ | _, .many _ => false
  | _, .flagged _ body | _, .map _ body | _, .located _ body => body.consumes

/-- Whether a phrase repeats, locates and puts behind something only what takes a token. -/
def wellFormed : {α : Type} → Phrase α → Bool
  | _, .token _ | _, .reference _ => true
  | _, .sequence first second | _, .choice first second => first.wellFormed && second.wellFormed
  | _, .optional body | _, .map _ body => body.wellFormed
  | _, .many body | _, .flagged _ body | _, .operation body | _, .located _ body =>
      body.consumes && body.wellFormed

end Phrase

theorem definition_consumes (symbol : Nonterminal α) : (definition symbol).consumes = true := by
  cases symbol <;> rfl

theorem definition_wellFormed (symbol : Nonterminal α) :
    (definition symbol).wellFormed = true := by
  cases symbol <;> rfl

/-! ## Runs -/

/-- The result of going on behind some tokens that were taken already. -/
def further (build : α → β) (taken : Nat) (found : Option (α × Nat)) : Option (β × Nat) :=
  found.map fun result => (build result.1, taken + result.2)

@[simp] theorem further_some (build : α → β) (taken : Nat) (value : α) (more : Nat) :
    further build taken (some (value, more)) = some (build value, taken + more) := rfl

theorem further_eq_some_iff {build : α → β} {taken : Nat} {found : Option (α × Nat)} {result : β}
    {total : Nat} : further build taken found = some (result, total) ↔
      ∃ value more, found = some (value, more) ∧ build value = result ∧ taken + more = total := by
  rcases found with _ | ⟨value, more⟩ <;> simp [further]

@[simp] theorem further_eq_none_iff {build : α → β} {taken : Nat} {found : Option (α × Nat)} :
    further build taken found = none ↔ found = none := by
  rcases found with _ | ⟨value, more⟩ <;> simp [further]

/-- How a phrase turns out on some tokens: the notes that it leaves, and the value and the number of
tokens taken when it matches. -/
inductive Run : {α : Type} → RuleName → Phrase α → List Token → List Miss → Option (α × Nat) → Prop
  | token {α : Type} {name : RuleName} {terminal : Terminal α} {first : Token} {rest : List Token}
      {value : α} (read : terminal.read first = some value) :
      Run name (.token terminal) (first :: rest) [] (some (value, 1))
  | tokenMissed {α : Type} {name : RuleName} {terminal : Terminal α} {tokens : List Token}
      (unread : tokens.head?.bind terminal.read = none) :
      Run name (.token terminal) tokens (terminal.misses name tokens.head?) none
  | reference {α : Type} {name : RuleName} {symbol : Nonterminal α} {tokens : List Token}
      {misses : List Miss} {found : Option (α × Nat)}
      (inner : Run symbol.name (definition symbol) tokens misses found) :
      Run name (.reference symbol) tokens misses found
  | sequenceMissed {α β : Type} {name : RuleName} {first : Phrase α} {second : Phrase β}
      {tokens : List Token} {misses : List Miss} (left : Run name first tokens misses none) :
      Run name (.sequence first second) tokens misses none
  | sequence {α β : Type} {name : RuleName} {first : Phrase α} {second : Phrase β}
      {tokens : List Token} {misses later : List Miss} {value : α} {taken : Nat}
      {found : Option (β × Nat)} (left : Run name first tokens misses (some (value, taken)))
      (right : Run name second (tokens.drop taken) later found) :
      Run name (.sequence first second) tokens (misses ++ later.map (Miss.shift taken))
        (further (fun result => (value, result)) taken found)
  | choiceFirst {α : Type} {name : RuleName} {first second : Phrase α} {tokens : List Token}
      {misses : List Miss} {result : α × Nat} (left : Run name first tokens misses (some result)) :
      Run name (.choice first second) tokens misses (some result)
  | choiceSecond {α : Type} {name : RuleName} {first second : Phrase α} {tokens : List Token}
      {misses later : List Miss} {found : Option (α × Nat)}
      (left : Run name first tokens misses none) (right : Run name second tokens later found) :
      Run name (.choice first second) tokens (misses ++ later) found
  | optional {α : Type} {name : RuleName} {body : Phrase α} {tokens : List Token}
      {misses : List Miss} {value : α} {taken : Nat}
      (inner : Run name body tokens misses (some (value, taken))) :
      Run name (.optional body) tokens misses (some (some value, taken))
  | optionalMissed {α : Type} {name : RuleName} {body : Phrase α} {tokens : List Token}
      {misses : List Miss} (inner : Run name body tokens misses none) :
      Run name (.optional body) tokens misses (some (none, 0))
  | manyEnd {α : Type} {name : RuleName} {body : Phrase α} {tokens : List Token}
      {misses : List Miss} (inner : Run name body tokens misses none) :
      Run name (.many body) tokens misses (some ([], 0))
  | many {α : Type} {name : RuleName} {body : Phrase α} {tokens : List Token}
      {misses later : List Miss} {item : α} {items : List α} {taken more : Nat}
      (consumes : body.consumes = true)
      (inner : Run name body tokens misses (some (item, taken)))
      (others : Run name (.many body) (tokens.drop taken) later (some (items, more))) :
      Run name (.many body) tokens (misses ++ later.map (Miss.shift taken))
        (some (item :: items, taken + more))
  | flagged {α : Type} {name : RuleName} {character : Char} {body : Phrase α} {first : Token}
      {rest : List Token} {misses : List Miss} {found : Option (α × Nat)}
      (set : first.isSymbol character = true) (inner : Run name body rest misses found) :
      Run name (.flagged character body) (first :: rest) (misses.map (Miss.shift 1))
        (further (fun value => (true, value)) 1 found)
  | flaggedUnset {α : Type} {name : RuleName} {character : Char} {body : Phrase α}
      {tokens : List Token} {misses : List Miss} {found : Option (α × Nat)}
      (consumes : body.consumes = true)
      (unset : ∀ first ∈ tokens.head?, first.isSymbol character = false)
      (inner : Run name body tokens misses found) :
      Run name (.flagged character body) tokens misses
        (further (fun value => (false, value)) 0 found)
  | operationMissed {α : Type} {name : RuleName} {operand : Phrase α} {tokens : List Token}
      (unread : Recognizer.operator.look tokens = none) :
      Run name (.operation operand) tokens [⟨0, false, name, .operator⟩] none
  | operation {α : Type} {name : RuleName} {operand : Phrase α} {tokens : List Token}
      {operator : Operator} {taken : Nat} {misses : List Miss} {found : Option (α × Nat)}
      (consumes : operand.consumes = true)
      (read : Recognizer.operator.look tokens = some (operator, taken))
      (inner : Run name operand (tokens.drop taken) misses found) :
      Run name (.operation operand) tokens (misses.map (Miss.shift taken))
        (further (fun value => (operator, value)) taken found)
  | map {α β : Type} {name : RuleName} {build : α → β} {body : Phrase α} {tokens : List Token}
      {misses : List Miss} {found : Option (α × Nat)} (inner : Run name body tokens misses found) :
      Run name (.map build body) tokens misses (further build 0 found)
  | located {α β : Type} {name : RuleName} {build : Position → α → β} {body : Phrase α}
      {tokens : List Token} {misses : List Miss} {found : Option (α × Nat)}
      (consumes : body.consumes = true) (inner : Run name body tokens misses found) :
      Run name (.located build body) tokens misses
        (further (build ((tokens.head?.map Token.position).getD Position.start)) 0 found)

/-! ## How far a run looks -/

/-- The first tokens up to a count are there, and the input does not end among them. -/
def Passes (tokens : List Token) (count : Nat) : Prop :=
  count ≤ tokens.length ∧ ∀ token ∈ tokens.take count, token.isEnd = false

namespace Passes

theorem zero (tokens : List Token) : Passes tokens 0 :=
  ⟨Nat.zero_le _, fun _ member => absurd member (List.not_mem_nil)⟩

theorem add {tokens : List Token} {first second : Nat} (before : Passes tokens first)
    (behind : Passes (tokens.drop first) second) : Passes tokens (first + second) := by
  refine ⟨?_, fun token member => ?_⟩
  · have := before.1
    have := behind.1
    rw [List.length_drop] at this
    omega
  · rw [List.take_add, List.mem_append] at member
    exact member.elim (before.2 token) (behind.2 token)

theorem mono {tokens : List Token} {smaller larger : Nat} (passes : Passes tokens larger)
    (le : smaller ≤ larger) : Passes tokens smaller :=
  ⟨Nat.le_trans le passes.1, fun token member =>
    passes.2 token (List.take_subset_take_left _ le member)⟩

theorem one {first : Token} {rest : List Token} (proper : first.isEnd = false) :
    Passes (first :: rest) 1 :=
  ⟨Nat.succ_le_succ (Nat.zero_le _), by simpa using proper⟩

end Passes

theorem look_operator_passes {tokens : List Token} {operator : Operator} {taken : Nat}
    (read : Recognizer.operator.look tokens = some (operator, taken)) :
    0 < taken ∧ Passes tokens taken := by
  rcases look_operator_cases read with
    ⟨first, rest, rfl, rfl, symbol, _⟩ | ⟨first, second, rest, rfl, rfl, symbol, also, _⟩
  · exact ⟨Nat.one_pos, .one (by simp [Token.isEnd, symbol])⟩
  · have one : Passes (first :: second :: rest) 1 := .one (by simp [Token.isEnd, symbol])
    exact ⟨Nat.two_pos, one.add (.one (by simp [Token.isEnd, also]))⟩

namespace Run

variable {name : RuleName} {phrase : Phrase α} {tokens : List Token} {misses : List Miss}
  {found : Option (α × Nat)}

/-- A phrase that does not match leaves a note. -/
theorem noted (run : Run name phrase tokens misses found) (missed : found = none) :
    misses ≠ [] := by
  induction run with
  | tokenMissed _ => exact Terminal.misses_ne_nil _ _ _
  | reference _ ih => exact ih missed
  | sequenceMissed _ ih => exact ih rfl
  | sequence _ _ _ ih => simp [ih (further_eq_none_iff.mp missed)]
  | choiceSecond _ _ _ ih => simp [ih missed]
  | flagged _ _ ih => simp [ih (further_eq_none_iff.mp missed)]
  | flaggedUnset _ _ _ ih => exact ih (further_eq_none_iff.mp missed)
  | operationMissed _ => exact List.cons_ne_nil _ _
  | operation _ _ _ ih => simp [ih (further_eq_none_iff.mp missed)]
  | map _ ih => exact ih (further_eq_none_iff.mp missed)
  | located _ _ ih => exact ih (further_eq_none_iff.mp missed)
  | _ => cases missed

/-- What a match takes is there, and the input does not end in it. -/
theorem passes (run : Run name phrase tokens misses found) :
    ∀ {value : α} {taken : Nat}, found = some (value, taken) → Passes tokens taken := by
  induction run with
  | token read =>
      intro _ _ matched
      cases matched
      exact .one (Terminal.isEnd_of_read read)
  | reference _ ih => exact ih
  | sequence _ _ left right =>
      intro _ _ matched
      obtain ⟨_, _, rfl, _, rfl⟩ := further_eq_some_iff.mp matched
      exact (left rfl).add (right rfl)
  | choiceFirst _ ih => exact ih
  | choiceSecond _ _ _ ih => exact ih
  | optional _ ih =>
      intro _ _ matched
      cases matched
      exact ih rfl
  | optionalMissed _ _ | manyEnd _ _ =>
      intro _ _ matched
      cases matched
      exact .zero _
  | many _ _ _ inner others =>
      intro _ _ matched
      cases matched
      exact (inner rfl).add (others rfl)
  | flagged set _ ih =>
      intro _ _ matched
      obtain ⟨_, _, rfl, _, rfl⟩ := further_eq_some_iff.mp matched
      exact (Passes.one (by grind [Token.isSymbol, Token.isEnd])).add (ih rfl)
  | flaggedUnset _ _ _ ih =>
      intro _ _ matched
      obtain ⟨_, _, rfl, _, rfl⟩ := further_eq_some_iff.mp matched
      simpa using ih rfl
  | operation _ read _ ih =>
      intro _ _ matched
      obtain ⟨_, _, rfl, _, rfl⟩ := further_eq_some_iff.mp matched
      exact (look_operator_passes read).2.add (ih rfl)
  | map _ ih =>
      intro _ _ matched
      obtain ⟨_, _, rfl, _, rfl⟩ := further_eq_some_iff.mp matched
      simpa using ih rfl
  | located _ _ ih =>
      intro _ _ matched
      obtain ⟨_, _, rfl, _, rfl⟩ := further_eq_some_iff.mp matched
      simpa using ih rfl
  | _ =>
      intro _ _ matched
      cases matched

/-- What stands in front of a note was there, and the input does not end in it. -/
theorem passes_misses (run : Run name phrase tokens misses found) :
    ∀ miss ∈ misses, Passes tokens miss.position := by
  induction run with
  | token _ => simp
  | tokenMissed _ =>
      intro miss member
      rw [Terminal.misses_position _ _ _ miss member]
      exact .zero _
  | sequence left _ before behind | many _ left _ before behind =>
      intro miss member
      rcases List.mem_append.mp member with member | member
      · exact before miss member
      · obtain ⟨inner, noted, rfl⟩ := List.mem_map.mp member
        exact (left.passes rfl).add (behind inner noted)
  | choiceSecond _ _ left right =>
      intro miss member
      exact (List.mem_append.mp member).elim (left miss) (right miss)
  | flagged set _ ih =>
      intro miss member
      obtain ⟨inner, noted, rfl⟩ := List.mem_map.mp member
      exact (Passes.one (by grind [Token.isSymbol, Token.isEnd])).add (ih inner noted)
  | operationMissed _ =>
      intro miss member
      rw [List.mem_singleton.mp member]
      exact .zero _
  | operation _ read _ ih =>
      intro miss member
      obtain ⟨inner, noted, rfl⟩ := List.mem_map.mp member
      exact (look_operator_passes read).2.add (ih inner noted)
  | reference _ ih | sequenceMissed _ ih | choiceFirst _ ih | optional _ ih | optionalMissed _ ih
  | manyEnd _ ih | flaggedUnset _ _ _ ih | map _ ih | located _ _ ih => exact ih

/-- A match of a phrase that consumes takes a token. -/
theorem progress (run : Run name phrase tokens misses found) (consumes : phrase.consumes = true) :
    ∀ {value : α} {taken : Nat}, found = some (value, taken) → 0 < taken := by
  induction run with
  | token _ =>
      intro _ _ matched
      cases matched
      exact Nat.one_pos
  | @reference _ _ symbol _ _ _ _ ih => exact ih (definition_consumes symbol)
  | sequence _ _ left right =>
      intro _ _ matched
      obtain ⟨_, _, rfl, _, rfl⟩ := further_eq_some_iff.mp matched
      rcases Bool.or_eq_true _ _ |>.mp consumes with consumes | consumes
      · exact Nat.add_pos_left (left consumes rfl) _
      · exact Nat.add_pos_right _ (right consumes rfl)
  | choiceFirst _ ih => exact ih (Bool.and_eq_true _ _ |>.mp consumes).1
  | choiceSecond _ _ _ ih => exact ih (Bool.and_eq_true _ _ |>.mp consumes).2
  | flagged _ _ _ =>
      intro _ _ matched
      obtain ⟨_, _, rfl, _, rfl⟩ := further_eq_some_iff.mp matched
      exact Nat.add_pos_left Nat.one_pos _
  | flaggedUnset _ _ _ ih =>
      intro _ _ matched
      obtain ⟨_, _, rfl, _, rfl⟩ := further_eq_some_iff.mp matched
      exact Nat.add_pos_right _ (ih consumes rfl)
  | operation _ read _ _ =>
      intro _ _ matched
      obtain ⟨_, _, rfl, _, rfl⟩ := further_eq_some_iff.mp matched
      exact Nat.add_pos_left (look_operator_passes read).1 _
  | map _ ih =>
      intro _ _ matched
      obtain ⟨_, _, rfl, _, rfl⟩ := further_eq_some_iff.mp matched
      exact Nat.add_pos_right _ (ih consumes rfl)
  | located _ _ ih =>
      intro _ _ matched
      obtain ⟨_, _, rfl, _, rfl⟩ := further_eq_some_iff.mp matched
      exact Nat.add_pos_right _ (ih consumes rfl)
  | optional _ _ | optionalMissed _ _ | manyEnd _ _ | many _ _ _ _ _ => cases consumes
  | _ =>
      intro _ _ matched
      cases matched

end Run

end CollectionSchema.Peg
