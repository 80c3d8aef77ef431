import CollectionSchema.Proofs.Session

/-!
# The parser conforms to the normative grammar

Matching a phrase with a bound on the steps gives the same outcome with every
larger bound, once it gives one (`Phrase.parse_mono`).  A run of the phrase tells
which outcome that is (`Run.parse`).  The parser of the library therefore accepts
what the grammar matches and builds the same program; only the tokens in front of
the end of the input count.
-/

set_option autoImplicit false

namespace CollectionSchema.Peg

variable {α β : Type}

/-! ## More steps decide no less -/

namespace Outcome

/-- An outcome that agrees with another one as far as it is decided. -/
def Below (less more : Outcome α) : Prop := less = .undecided ∨ more = less

namespace Below

theorem refl (outcome : Outcome α) : Below outcome outcome := .inr rfl

theorem undecided (outcome : Outcome α) : Below .undecided outcome := .inl rfl

theorem andThen {less more : Outcome α} {next later : α → List Token → Outcome β}
    (first : Below less more) (second : ∀ value rest, Below (next value rest) (later value rest)) :
    Below (less.andThen next) (more.andThen later) := by
  rcases first with rfl | rfl
  · exact undecided _
  · rcases more with _ | _ | ⟨value, rest⟩
    · exact refl _
    · exact refl _
    · exact second value rest

theorem map {less more : Outcome α} (build : α → β) (below : Below less more) :
    Below (less.map build) (more.map build) :=
  andThen below fun _ _ => refl _

theorem orElse {less more less' more' : Outcome α} (first : Below less more)
    (second : Below less' more') : Below (less.orElse less') (more.orElse more') := by
  rcases first with rfl | rfl
  · exact undecided _
  · rcases more with _ | _ | ⟨value, rest⟩
    · exact refl _
    · exact second
    · exact refl _

end Below

end Outcome

open Outcome (Below)

theorem Phrase.parse_succ (steps : Nat) :
    ∀ {α : Type} (phrase : Phrase α) (tokens : List Token),
      Below (phrase.parse steps tokens) (phrase.parse (steps + 1) tokens) := by
  induction steps with
  | zero => exact fun _ _ => Below.undecided _
  | succ steps ih =>
      intro α phrase tokens
      cases phrase with
      | token terminal => cases tokens <;> exact .refl _
      | reference symbol => exact ih _ _
      | sequence first second =>
          exact (ih first tokens).andThen fun _ rest => (ih second rest).map _
      | choice first second => exact (ih first tokens).orElse (ih second tokens)
      | optional body => exact ((ih body tokens).map some).orElse (.refl _)
      | many body =>
          rcases ih body tokens with undecided | same
          · exact .inl (by rw [parse, undecided])
          · rw [parse, parse, same]
            rcases body.parse steps tokens with _ | _ | ⟨item, behind⟩
            · exact .refl _
            · exact .refl _
            · exact (ih (.many body) behind).map _
      | flagged character body =>
          rcases tokens with _ | ⟨first, rest⟩
          · exact (ih body []).map _
          · simp only [parse]
            split
            · exact (ih body rest).map _
            · exact (ih body (first :: rest)).map _
      | operation operand =>
          simp only [parse]
          rcases operator? tokens with _ | ⟨operator, behind⟩
          · exact .refl _
          · exact (ih operand behind).map _
      | map build body => exact (ih body tokens).map _
      | located build body => exact (ih body tokens).map _

theorem Phrase.parse_mono {phrase : Phrase α} {tokens : List Token} {steps more : Nat}
    (le : steps ≤ more) (decided : phrase.parse steps tokens ≠ .undecided) :
    phrase.parse more tokens = phrase.parse steps tokens := by
  induction le with
  | refl => rfl
  | @step more _ ih =>
      rcases Phrase.parse_succ more phrase tokens with undecided | same
      · exact absurd (ih ▸ undecided) decided
      · exact same.trans ih

/-! ## A run tells the outcome -/

/-- The outcome that a run stands for. -/
def Outcome.ofFound (tokens : List Token) : Option (α × Nat) → Outcome α
  | none => .mismatch
  | some (value, taken) => .matched value (tokens.drop taken)

theorem Outcome.ofFound_ne_undecided (tokens : List Token) (found : Option (α × Nat)) :
    Outcome.ofFound tokens found ≠ .undecided := by
  rcases found with _ | _ <;> exact nofun

theorem Outcome.map_ofFound (build : α → β) (tokens : List Token) (taken : Nat)
    (found : Option (α × Nat)) :
    (Outcome.ofFound (tokens.drop taken) found).map build =
      Outcome.ofFound tokens (further build taken found) := by
  rcases found with _ | ⟨value, more⟩
  · rfl
  · simp [Outcome.ofFound, Outcome.map, Outcome.andThen]

theorem operator?_eq (tokens : List Token) :
    operator? tokens = (Recognizer.operator.look tokens).map fun result =>
      (result.1, tokens.drop result.2) := by
  rcases tokens with _ | ⟨first, _ | ⟨second, others⟩⟩
  · rfl
  · simp only [operator?, Recognizer.operator]
    split
    · rcases Operator.ofSpelling? first.lexeme with _ | single <;> rfl
    · rfl
  · simp only [operator?, Recognizer.operator, List.head?_cons, Option.bind_some,
      Recognizer.pair?]
    split
    · rcases Operator.ofSpelling? first.lexeme with _ | single
      · rfl
      · simp only
        split
        · rcases Operator.ofSpelling? (first.lexeme ++ second.lexeme) with _ | double <;> rfl
        · rfl
    · rfl

theorem Phrase.parse_found {phrase : Phrase α} {tokens : List Token} {found : Option (α × Nat)}
    {steps more : Nat} (outcome : phrase.parse steps tokens = .ofFound tokens found)
    (le : steps ≤ more) : phrase.parse more tokens = .ofFound tokens found := by
  have decided : phrase.parse steps tokens ≠ .undecided := by
    rw [outcome]
    exact Outcome.ofFound_ne_undecided tokens found
  rw [Phrase.parse_mono le decided, outcome]

/-- What a run says is what the phrase leads to within enough steps. -/
theorem Run.parse {name : RuleName} {phrase : Phrase α} {tokens : List Token}
    {misses : List Miss} {found : Option (α × Nat)} (run : Run name phrase tokens misses found) :
    ∃ steps, phrase.parse steps tokens = .ofFound tokens found := by
  induction run with
  | token read => exact ⟨1, by simp [Phrase.parse, read, Outcome.ofFound]⟩
  | @tokenMissed _ _ terminal tokens unread =>
      refine ⟨1, ?_⟩
      rcases tokens with _ | ⟨first, rest⟩
      · rfl
      · have unread : terminal.read first = none := by simpa using unread
        simp [Phrase.parse, unread, Outcome.ofFound]
  | reference _ ih =>
      obtain ⟨steps, inner⟩ := ih
      exact ⟨steps + 1, inner⟩
  | sequenceMissed _ ih =>
      obtain ⟨steps, left⟩ := ih
      exact ⟨steps + 1, by rw [Phrase.parse, left]; rfl⟩
  | sequence _ _ ihLeft ihRight =>
      obtain ⟨steps, left⟩ := ihLeft
      obtain ⟨more, right⟩ := ihRight
      have left := Phrase.parse_found left (Nat.le_max_left steps more)
      have right := Phrase.parse_found right (Nat.le_max_right steps more)
      refine ⟨max steps more + 1, ?_⟩
      rw [Phrase.parse, left, ← Outcome.map_ofFound, ← right]
      rfl
  | choiceFirst _ ih =>
      obtain ⟨steps, left⟩ := ih
      exact ⟨steps + 1, by rw [Phrase.parse, left]; rfl⟩
  | choiceSecond _ _ ihLeft ihRight =>
      obtain ⟨steps, left⟩ := ihLeft
      obtain ⟨more, right⟩ := ihRight
      have left := Phrase.parse_found left (Nat.le_max_left steps more)
      have right := Phrase.parse_found right (Nat.le_max_right steps more)
      exact ⟨max steps more + 1, by rw [Phrase.parse, left, right]; rfl⟩
  | optional _ ih | optionalMissed _ ih =>
      obtain ⟨steps, inner⟩ := ih
      exact ⟨steps + 1, by rw [Phrase.parse, inner]; rfl⟩
  | manyEnd _ ih =>
      obtain ⟨steps, inner⟩ := ih
      exact ⟨steps + 1, by rw [Phrase.parse, inner]; rfl⟩
  | many _ _ _ ihInner ihOthers =>
      obtain ⟨steps, inner⟩ := ihInner
      obtain ⟨more, others⟩ := ihOthers
      have inner := Phrase.parse_found inner (Nat.le_max_left steps more)
      have others := Phrase.parse_found others (Nat.le_max_right steps more)
      refine ⟨max steps more + 1, ?_⟩
      rw [Phrase.parse, inner]
      simp only [Outcome.ofFound, others]
      exact Outcome.map_ofFound (fun items => _ :: items) _ _ (some (_, _))
  | flagged set _ ih =>
      obtain ⟨steps, inner⟩ := ih
      refine ⟨steps + 1, ?_⟩
      rw [Phrase.parse, if_pos set, inner]
      exact Outcome.map_ofFound _ (_ :: _) 1 _
  | @flaggedUnset _ _ _ _ tokens _ _ _ unset _ ih =>
      obtain ⟨steps, inner⟩ := ih
      refine ⟨steps + 1, ?_⟩
      rw [← Outcome.map_ofFound, List.drop_zero, ← inner]
      rcases tokens with _ | ⟨first, rest⟩
      · rfl
      · rw [Phrase.parse, if_neg (by simp [unset first rfl])]
  | operationMissed unread =>
      exact ⟨1, by rw [Phrase.parse, operator?_eq, unread]; rfl⟩
  | operation _ read _ ih =>
      obtain ⟨steps, inner⟩ := ih
      refine ⟨steps + 1, ?_⟩
      rw [Phrase.parse, operator?_eq, read, ← Outcome.map_ofFound, ← inner]
      rfl
  | map _ ih | located _ _ ih =>
      obtain ⟨steps, inner⟩ := ih
      refine ⟨steps + 1, ?_⟩
      rw [Phrase.parse, inner, ← Outcome.map_ofFound, List.drop_zero]

/-! ## The end of the input -/

theorem beforeEnd_cons {first : Token} (rest : List Token) (proper : first.isEnd = false) :
    beforeEnd (first :: rest) = first :: beforeEnd rest :=
  List.takeWhile_cons_of_pos (by simp [proper])

theorem beforeEnd_drop {tokens : List Token} {count : Nat} (passes : Passes tokens count) :
    (beforeEnd tokens).drop count = beforeEnd (tokens.drop count) := by
  induction count generalizing tokens with
  | zero => rfl
  | succ count ih =>
      rcases tokens with _ | ⟨first, rest⟩
      · rfl
      · rw [beforeEnd_cons rest (passes.2 first (by simp)), List.drop_succ_cons,
          List.drop_succ_cons]
        exact ih ⟨Nat.le_of_succ_le_succ passes.1,
          fun token member => passes.2 token (List.mem_cons_of_mem first member)⟩

/-- In front of the end stands the first token, if it is not the end itself. -/
theorem head_beforeEnd (tokens : List Token) :
    (beforeEnd tokens).head? = tokens.head? ∨
      (beforeEnd tokens).head? = none ∧
        ∃ first, tokens.head? = some first ∧ first.isEnd = true := by
  rcases tokens with _ | ⟨first, rest⟩
  · exact .inl rfl
  · rcases ended : first.isEnd with _ | _
    · exact .inl (by rw [beforeEnd_cons rest ended]; rfl)
    · exact .inr ⟨by simp [beforeEnd, ended], first, rfl, ended⟩

theorem mem_head_beforeEnd {tokens : List Token} {first : Token}
    (member : first ∈ (beforeEnd tokens).head?) : first ∈ tokens.head? := by
  rcases head_beforeEnd tokens with same | ⟨none, _⟩
  · rwa [same] at member
  · rw [none] at member
    cases member

theorem beforeEnd_eq_nil_iff {tokens : List Token} :
    beforeEnd tokens = [] ↔ ∀ first ∈ tokens.head?, first.isEnd = true := by
  rcases tokens with _ | ⟨first, rest⟩
  · simp [beforeEnd]
  · simp [beforeEnd, List.takeWhile_cons]

theorem Terminal.misses_beforeEnd (name : RuleName) (terminal : Terminal α) (tokens : List Token) :
    terminal.misses name (beforeEnd tokens).head? = terminal.misses name tokens.head? := by
  rcases head_beforeEnd tokens with same | ⟨none, first, head, ended⟩
  · rw [same]
  · rw [none, head]
    have kind : first.kind ≠ .number := by
      intro kind
      rw [Token.isEnd, kind] at ended
      cases ended
    cases terminal <;> first | rfl | simp only [misses, if_neg kind]

theorem look_operator_beforeEnd {tokens : List Token} {operator : Operator} {taken : Nat}
    (read : Recognizer.operator.look tokens = some (operator, taken)) :
    Recognizer.operator.look (beforeEnd tokens) = some (operator, taken) := by
  rcases look_operator_cases read with
    ⟨first, rest, rfl, rfl, symbol, single, pair⟩ |
    ⟨first, second, rest, rfl, rfl, symbol, also, single, double⟩
  · rw [beforeEnd_cons rest (by simp [Token.isEnd, symbol])]
    have alone : (beforeEnd rest).head?.bind (Recognizer.pair? first) = none := by
      rcases head_beforeEnd rest with same | ⟨none, _⟩
      · rw [same, pair]
      · rw [none]
        rfl
    simp [Recognizer.operator, symbol, single, alone]
  · rw [beforeEnd_cons _ (by simp [Token.isEnd, symbol]),
      beforeEnd_cons rest (by simp [Token.isEnd, also])]
    obtain ⟨alone, single⟩ := Option.isSome_iff_exists.mp single
    simp [Recognizer.operator, Recognizer.pair?, symbol, also, single, double]

/-- Whatever stands behind the end of the input, and the end itself, is as good as nothing. -/
theorem Run.upToEnd {name : RuleName} {phrase : Phrase α} {tokens : List Token}
    {misses : List Miss} {found : Option (α × Nat)} (run : Run name phrase tokens misses found) :
    Run name phrase (beforeEnd tokens) misses found := by
  induction run with
  | token read =>
      rw [beforeEnd_cons _ (Terminal.isEnd_of_read read)]
      exact .token read
  | @tokenMissed _ name terminal tokens unread =>
      rw [← Terminal.misses_beforeEnd]
      refine .tokenMissed ?_
      rcases head_beforeEnd tokens with same | ⟨none, _⟩
      · rw [same, unread]
      · rw [none]
        rfl
  | reference _ ih => exact .reference ih
  | sequenceMissed _ ih => exact .sequenceMissed ih
  | sequence left _ ihLeft ihRight =>
      rw [← beforeEnd_drop (left.passes rfl)] at ihRight
      exact .sequence ihLeft ihRight
  | choiceFirst _ ih => exact .choiceFirst ih
  | choiceSecond _ _ ihLeft ihRight => exact .choiceSecond ihLeft ihRight
  | optional _ ih => exact .optional ih
  | optionalMissed _ ih => exact .optionalMissed ih
  | manyEnd _ ih => exact .manyEnd ih
  | many consumes inner _ ihInner ihOthers =>
      rw [← beforeEnd_drop (inner.passes rfl)] at ihOthers
      exact .many consumes ihInner ihOthers
  | flagged set _ ih =>
      rw [beforeEnd_cons _ (by grind [Token.isSymbol, Token.isEnd])]
      exact .flagged set ih
  | flaggedUnset consumes unset _ ih =>
      exact .flaggedUnset consumes (fun first member => unset first (mem_head_beforeEnd member)) ih
  | operationMissed unread =>
      exact .operationMissed (look_operator_eq_none_iff.mpr fun first member =>
        look_operator_eq_none_iff.mp unread first (mem_head_beforeEnd member))
  | operation consumes read _ ih =>
      rw [← beforeEnd_drop (look_operator_passes read).2] at ih
      exact .operation consumes (look_operator_beforeEnd read) ih
  | map _ ih => exact .map ih
  | @located _ _ _ _ _ tokens _ found consumes inner ih =>
      -- The place of the end of the input would show only in a match, which would have to take it.
      have built : found.isSome = true → (beforeEnd tokens).head? = tokens.head? := by
        intro matched
        obtain ⟨⟨value, count⟩, rfl⟩ := Option.isSome_iff_exists.mp matched
        have passes := (inner.passes rfl).mono (inner.progress consumes rfl)
        rcases head_beforeEnd tokens with same | ⟨_, first, head, ended⟩
        · exact same
        · obtain ⟨rest, rfl⟩ := List.head?_eq_some_iff.mp head
          rw [passes.2 first (by simp)] at ended
          cases ended
      rcases found with _ | result
      · exact .located consumes ih
      · rw [← built rfl]
        exact .located consumes ih

end CollectionSchema.Peg

namespace CollectionSchema

open Peg (Matches beforeEnd)

/-- The parser builds a program of some tokens exactly when the tokens in front of the end of the
input match the normative grammar, and it builds the program that the grammar builds. -/
theorem parse_eq_ok_iff_matches {tokens : List Token} {program : Program} :
    parse tokens = .ok program ↔ Matches (beforeEnd tokens) program := by
  obtain ⟨misses, found, taken, run⟩ := ParseSession.exists_run tokens
  have passes := run.passes rfl
  have bounded := run.upToEnd
  rw [beforeEnd_closed] at bounded
  obtain ⟨steps, outcome⟩ := bounded.parse
  have ended : (beforeEnd tokens).drop taken = [] ↔
      ((ParseSession.ofTokens tokens).tokenAt taken).isEnd = true := by
    rw [← beforeEnd_closed, Peg.beforeEnd_drop passes, Peg.beforeEnd_eq_nil_iff, List.head?_drop,
      ParseSession.tokenAt, ParseSession.ofTokens]
    rcases (closed tokens)[taken]? with _ | token
    · simp [Token.endAt, Token.isEnd]
    · simp
  rw [parse, ParseSession.parse_ofTokens run]
  constructor
  · intro parsed
    simp only at parsed
    split at parsed
    case isFalse => cases parsed
    case isTrue last =>
      cases parsed
      exact ⟨steps, by rw [outcome, Peg.Outcome.ofFound, ended.mpr last]⟩
  · rintro ⟨more, matched⟩
    have same : Peg.Outcome.ofFound (beforeEnd tokens) (some (found, taken)) =
        .matched program.declarations [] := by
      rw [← Peg.Phrase.parse_found outcome (Nat.le_max_left steps more), ← matched]
      refine Peg.Phrase.parse_mono (Nat.le_max_right steps more) ?_
      simp [matched]
    rw [Peg.Outcome.ofFound, Peg.Outcome.matched.injEq] at same
    simp only [if_pos (ended.mp same.2), same.1]

end CollectionSchema
