import CollectionSchema.Proofs.Rule.Algebra
import Mathlib.Data.List.Forall2

/-!
# Rules that refer to themselves

Two rules agree below a size when they reply alike to every list of tokens that
is shorter.  Every combination of rules keeps agreement, and behind a token it
even gains one: a body that refers to its rule only behind a token agrees on
lists one longer than its references do.  Such a body has a fixed point, and
`Rule.fix` computes it.

The three rules of the grammar that refer to themselves are types, expressions
and statements.
-/

set_option autoImplicit false

namespace CollectionSchema.Rule

variable {α β : Type} {size : Nat}

/-- Two rules that reply alike to every list shorter than a size. -/
def AgreeBelow (size : Nat) (first second : Rule α) : Prop :=
  ∀ tokens, tokens.length < size → first tokens = second tokens

namespace AgreeBelow

theorem refl (rule : Rule α) : AgreeBelow size rule rule := fun _ _ => rfl

theorem bind {first first' : Rule α} {second second' : α → Rule β}
    (firsts : AgreeBelow size first first')
    (seconds : ∀ value, AgreeBelow size (second value) (second' value)) :
    AgreeBelow size (first >>= second) (first' >>= second') := by
  intro tokens short
  rcases reply : first tokens with ⟨misses, _ | ⟨value, taken⟩⟩
  · rw [bind_of_missed reply, bind_of_missed ((firsts tokens short).symm.trans reply)]
  · rw [bind_of_found reply, bind_of_found ((firsts tokens short).symm.trans reply),
      seconds value _ (by rw [List.length_drop]; omega)]

theorem behind {first : Rule α} {second second' : α → Rule β}
    (seconds : ∀ value, AgreeBelow size (second value) (second' value)) :
    AgreeBelow size (first >>= second) (first >>= second') :=
  bind (refl first) seconds

theorem oneOf {rules rules' : List (Rule α)} (agree : List.Forall₂ (AgreeBelow size) rules rules') :
    AgreeBelow size (oneOf rules) (oneOf rules') := by
  induction agree with
  | nil => exact refl _
  | cons firsts _ others =>
      intro tokens short
      simp only [Rule.oneOf, firsts tokens short, others tokens short]

theorem optional {rule rule' : Rule α} (agree : AgreeBelow size rule rule') :
    AgreeBelow size (optional rule) (optional rule') := by
  intro tokens short
  simp only [Rule.optional, agree tokens short]

theorem atMost {rule rule' : Rule α} (agree : AgreeBelow size rule rule') (bound : Nat) :
    AgreeBelow size (atMost rule bound) (atMost rule' bound) := by
  induction bound with
  | zero => exact refl _
  | succ bound ih =>
      intro tokens short
      have later := fun taken => ih (tokens.drop taken) (by rw [List.length_drop]; omega)
      simp only [Rule.atMost, agree tokens short, later]

theorem many {rule rule' : Rule α} (agree : AgreeBelow size rule rule') :
    AgreeBelow size (many rule) (many rule') :=
  fun tokens short => agree.atMost (tokens.length + 1) tokens short

theorem separated {rule rule' : Rule α} (name : RuleName) (agree : AgreeBelow size rule rule') :
    AgreeBelow size (separated name rule) (separated name rule') := by
  rw [separated_eq, separated_eq]
  exact ((agree.bind fun _ => (behind fun _ => agree).many.bind fun _ => refl _).optional).bind
    fun _ => refl _

theorem braced {rule rule' : Rule α} (name : RuleName) (agree : AgreeBelow size rule rule') :
    AgreeBelow size (braced name rule) (braced name rule') :=
  behind fun _ => agree.many.bind fun _ => refl _

/-- A rule that takes a token lets what follows it be compared on shorter lists. -/
theorem behindToken {name : RuleName} {expected : List Expectation} {read : Token → Option α}
    {second second' : α → Rule β}
    (seconds : ∀ value, AgreeBelow size (second value) (second' value)) :
    AgreeBelow (size + 1) (accept name expected read >>= second)
      (accept name expected read >>= second') := by
  intro tokens short
  rcases reply : accept name expected read tokens with ⟨misses, _ | ⟨value, taken⟩⟩
  · rw [bind_of_missed reply, bind_of_missed reply]
  · have shorter : (tokens.drop taken).length < size := by
      rcases tokens with _ | ⟨token, rest⟩
      · simp [accept] at reply
      · simp only [accept, List.head?_cons, Option.bind_some] at reply
        split at reply <;> cases reply
        simpa using short
    rw [bind_of_found reply, bind_of_found reply, seconds value _ shorter]

theorem bracedBehindToken {rule rule' : Rule α} (name : RuleName)
    (agree : AgreeBelow size rule rule') :
    AgreeBelow (size + 1) (Rule.braced name rule) (Rule.braced name rule') :=
  behindToken fun _ => agree.many.bind fun _ => refl _

end AgreeBelow

/-! ## Fixed points -/

/-- Unfolded deeply enough, a rule no longer depends on the depth. -/
theorem agreeBelow_unfold {body : Rule α → Rule α}
    (guarded : ∀ {size : Nat} {rule rule' : Rule α}, AgreeBelow size rule rule' →
      AgreeBelow (size + 1) (body rule) (body rule')) :
    ∀ {size depth depth' : Nat}, size ≤ depth → size ≤ depth' →
      AgreeBelow size (unfold body depth) (unfold body depth')
  | 0, _, _, _, _ => fun _ short => absurd short (Nat.not_lt_zero _)
  | _ + 1, _ + 1, _ + 1, le, le' =>
      guarded (agreeBelow_unfold guarded (Nat.le_of_succ_le_succ le) (Nat.le_of_succ_le_succ le'))

/-- A rule that refers to itself only behind a token is equal to its body. -/
theorem fix_eq {body : Rule α → Rule α}
    (guarded : ∀ {size : Nat} {rule rule' : Rule α}, AgreeBelow size rule rule' →
      AgreeBelow (size + 1) (body rule) (body rule')) :
    fix body = body (fix body) := by
  funext tokens
  have inner : AgreeBelow tokens.length (unfold body tokens.length) (fix body) :=
    fun shorter short =>
      agreeBelow_unfold guarded (Nat.succ_le_of_lt short) (Nat.le_refl _) shorter
        (Nat.lt_succ_self _)
  exact guarded inner tokens (Nat.lt_succ_self _)

end CollectionSchema.Rule

namespace CollectionSchema.Grammar

open Rule

/-! ## Types -/

theorem fieldOf_agree {size : Nat} {type type' : Rule SchemaType}
    (agree : AgreeBelow size type type') : AgreeBelow size (fieldOf type) (fieldOf type') :=
  .behind fun _ => .behind fun _ => .behind fun _ => .behind fun _ => .behind fun _ =>
    agree.bind fun _ => .refl _

theorem mapType_agree {size : Nat} {type type' : Rule SchemaType} (position : Position)
    (agree : AgreeBelow size type type') :
    AgreeBelow (size + 1) (mapType type position) (mapType type' position) :=
  .behindToken fun _ => .behind fun _ => .behind fun _ => .behind fun _ =>
    agree.bind fun _ => .refl _

theorem objectType_agree {size : Nat} {type type' : Rule SchemaType} (position : Position)
    (agree : AgreeBelow size type type') :
    AgreeBelow (size + 1) (objectType type position) (objectType type' position) :=
  .bind (.bracedBehindToken _ ((fieldOf_agree agree).bind fun _ => .refl _)) fun _ => .refl _

theorem typeBody_agree {size : Nat} {type type' : Rule SchemaType}
    (agree : AgreeBelow size type type') :
    AgreeBelow (size + 1) (typeBody type) (typeBody type') :=
  .behind fun position => .oneOf <|
    .cons (.refl _) <| .cons (mapType_agree position agree) <|
      .cons (objectType_agree position agree) <| .cons (.refl _) .nil

theorem type_eq : type = typeBody type := fix_eq typeBody_agree

/-! ## Expressions -/

theorem call_agree {size : Nat} {expression expression' : Rule Expression} (position : Position)
    (agree : AgreeBelow size expression expression') :
    AgreeBelow (size + 1) (call expression position) (call expression' position) :=
  .behindToken fun _ => .behind fun _ => .bind (.separated _ agree) fun _ => .refl _

theorem enclosed_agree {size : Nat} {expression expression' : Rule Expression}
    (position : Position) (agree : AgreeBelow size expression expression') :
    AgreeBelow (size + 1) (enclosed expression position) (enclosed expression' position) :=
  .behindToken fun _ => agree.bind fun _ => .refl _

theorem valueOf_agree {size : Nat} {expression expression' : Rule Expression}
    (agree : AgreeBelow size expression expression') :
    AgreeBelow (size + 1) (valueOf expression) (valueOf expression') :=
  .behind fun position => .oneOf <|
    .cons (.refl _) <| .cons (.refl _) <| .cons (.refl _) <|
      .cons (call_agree position agree) <| .cons (.refl _) <|
        .cons (enclosed_agree position agree) .nil

theorem expressionBody_agree {size : Nat} {expression expression' : Rule Expression}
    (agree : AgreeBelow size expression expression') :
    AgreeBelow (size + 1) (expressionBody expression) (expressionBody expression') :=
  .bind (valueOf_agree agree) fun _ =>
    .bind (.optional (.behind fun _ => (valueOf_agree agree).bind fun _ => .refl _)) fun _ =>
      .refl _

theorem expression_eq : expression = expressionBody expression := fix_eq expressionBody_agree

/-! ## Statements -/

theorem branch_agree {size : Nat} {statement statement' : Rule Statement}
    (agree : AgreeBelow size statement statement') :
    AgreeBelow size (branch statement) (branch statement') :=
  .oneOf <| .cons (.bind (.braced _ agree) fun _ => .refl _) <| .cons (.refl _) .nil

theorem conditional_agree {size : Nat} {statement statement' : Rule Statement}
    (agree : AgreeBelow size statement statement') :
    AgreeBelow (size + 1) (conditional statement) (conditional statement') :=
  .behind fun _ => .behindToken fun _ => .behind fun _ =>
    .bind (.optional (branch_agree agree)) fun _ =>
      .bind (.optional (.behind fun _ => branch_agree agree)) fun _ => .refl _

theorem whileLoop_agree {size : Nat} {statement statement' : Rule Statement}
    (agree : AgreeBelow size statement statement') :
    AgreeBelow (size + 1) (whileLoop statement) (whileLoop statement') :=
  .behind fun _ => .behindToken fun _ => .behind fun _ =>
    .bind (.braced _ agree) fun _ => .refl _

theorem forLoop_agree {size : Nat} {statement statement' : Rule Statement}
    (agree : AgreeBelow size statement statement') :
    AgreeBelow (size + 1) (forLoop statement) (forLoop statement') :=
  .behind fun _ => .behindToken fun _ => .behind fun _ => .behind fun _ => .behind fun _ =>
    .behind fun _ => .behind fun _ => .behind fun _ => .behind fun _ =>
      .bind (.braced _ agree) fun _ => .refl _

theorem statementBody_agree {size : Nat} {statement statement' : Rule Statement}
    (agree : AgreeBelow size statement statement') :
    AgreeBelow (size + 1) (statementBody statement) (statementBody statement') :=
  .oneOf <| .cons (conditional_agree agree) <| .cons (whileLoop_agree agree) <|
    .cons (forLoop_agree agree) <| .cons (.refl _) .nil

theorem statement_eq : statement = statementBody statement := fix_eq statementBody_agree

end CollectionSchema.Grammar
