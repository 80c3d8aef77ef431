import CollectionSchema.Proofs.Peg.Run

/-!
# Replies and runs

The reply of a phrase as a rule is what its run says, and every phrase of the
grammar has a run on every list of tokens.  The symbols refer to each other, but
none refers to itself in front of its first token: along a chain of references
at one place the rank of the symbols goes down, and behind a token the list is
shorter.
-/

set_option autoImplicit false

namespace CollectionSchema.Peg

variable {α β : Type}

/-! ## Replies and runs -/

/-- A phrase as a rule, with a bound on how often it repeats at its top. -/
def Phrase.atMost (bound : Nat) (name : RuleName) : {α : Type} → Phrase α → Rule α
  | _, .many body => Rule.atMost (body.rule name) bound
  | _, phrase => phrase.rule name

theorem Phrase.rule_of_atMost {name : RuleName} {phrase : Phrase α} {tokens : List Token}
    {reply : Reply α}
    (bounded : ∀ bound, tokens.length < bound → phrase.atMost bound name tokens = reply) :
    phrase.rule name tokens = reply := by
  rw [← bounded _ (Nat.lt_succ_self _)]
  cases phrase <;> rfl

theorem flag_of_set {character : Char} {first : Token} {rest : List Token}
    (set : first.isSymbol character = true) :
    Rule.flag character (first :: rest) = ⟨[], some (true, 1)⟩ := by
  simp only [Rule.flag, set, if_true]

theorem flag_of_unset {character : Char} {tokens : List Token}
    (unset : ∀ first ∈ tokens.head?, first.isSymbol character = false) :
    Rule.flag character tokens = ⟨[], some (false, 0)⟩ := by
  rcases tokens with _ | ⟨first, rest⟩
  · rfl
  · simp [Rule.flag, unset first rfl]

theorem recognizer_of_seen {recognizer : Recognizer α} {name : RuleName} {tokens : List Token}
    {result : α × Nat} (seen : recognizer.look tokens = some result) :
    recognizer.rule name tokens = ⟨[], some result⟩ := by
  simp only [Recognizer.rule, Rule.claim, seen]

theorem recognizer_of_unseen {recognizer : Recognizer α} {name : RuleName} {tokens : List Token}
    (unseen : recognizer.look tokens = none) :
    recognizer.rule name tokens = ⟨[⟨0, false, name, recognizer.expected⟩], none⟩ := by
  simp only [Recognizer.rule, Rule.claim, unseen]

theorem further_zero (build : α → β) (found : Option (α × Nat)) :
    further build 0 found = found.map fun result => (build result.1, result.2) := by
  simp only [further, Nat.zero_add]

namespace Run

variable {name : RuleName} {phrase : Phrase α} {tokens : List Token} {misses : List Miss}
  {found : Option (α × Nat)}

/-- A run says what the phrase replies as a rule, whatever the bound on its repetition, if only
there are fewer tokens. -/
theorem reply_atMost (run : Run name phrase tokens misses found) :
    ∀ bound, tokens.length < bound → phrase.atMost bound name tokens = ⟨misses, found⟩ := by
  induction run with
  | token read => exact fun _ _ => Terminal.rule_of_read read
  | tokenMissed unread => exact fun _ _ => Terminal.rule_of_unread unread
  | @reference _ _ symbol _ _ _ _ ih =>
      intro _ _
      exact (congrFun (rule_eq symbol) _).trans (Phrase.rule_of_atMost ih)
  | sequenceMissed _ ih => exact fun _ _ => Rule.bind_of_missed (Phrase.rule_of_atMost ih)
  | sequence _ _ left right =>
      intro _ _
      have first := Phrase.rule_of_atMost left
      have second := Phrase.rule_of_atMost right
      refine (Rule.bind_of_found first).trans ?_
      rw [Rule.bind_pure_apply, second, further]
      simp [Function.comp_def]
  | choiceFirst _ ih => exact fun _ _ => Rule.oneOf_of_found (Phrase.rule_of_atMost ih)
  | choiceSecond _ _ left right =>
      intro _ _
      have first := Phrase.rule_of_atMost left
      have second := Phrase.rule_of_atMost right
      exact (Rule.oneOf_of_missed first).trans (by rw [Rule.oneOf_single, second])
  | optional _ ih => exact fun _ _ => Rule.optional_of_found (Phrase.rule_of_atMost ih)
  | optionalMissed _ ih => exact fun _ _ => Rule.optional_of_missed (Phrase.rule_of_atMost ih)
  | manyEnd _ ih =>
      intro bound short
      obtain ⟨bound, rfl⟩ := Nat.exists_eq_succ_of_ne_zero (Nat.ne_zero_of_lt short)
      exact Rule.atMost_of_missed bound (Phrase.rule_of_atMost ih)
  | @many _ _ _ tokens _ _ _ _ taken _ consumes run _ inner others =>
      intro bound short
      obtain ⟨bound, rfl⟩ := Nat.exists_eq_succ_of_ne_zero (Nat.ne_zero_of_lt short)
      have progress := run.progress consumes rfl
      have shorter : (tokens.drop taken).length < bound := by
        have := (run.passes rfl).1
        rw [List.length_drop]
        omega
      have later := others bound shorter
      rw [Phrase.atMost] at later
      refine (Rule.atMost_of_found bound (Phrase.rule_of_atMost inner) progress).trans ?_
      rw [later]
      rfl
  | flagged set _ ih =>
      intro _ _
      have value := Phrase.rule_of_atMost ih
      refine (Rule.bind_of_found (flag_of_set set)).trans ?_
      rw [Rule.bind_pure_apply, List.drop_one, List.tail_cons, value, further]
      simp [Function.comp_def]
  | flaggedUnset _ unset _ ih =>
      intro _ _
      have value := Phrase.rule_of_atMost ih
      refine (Rule.bind_of_found (flag_of_unset unset)).trans ?_
      rw [Rule.bind_pure_apply, List.drop_zero, value, further]
      simp [Function.comp_def]
  | operationMissed unread =>
      exact fun _ _ => Rule.bind_of_missed (recognizer_of_unseen unread)
  | operation _ read _ ih =>
      intro _ _
      have value := Phrase.rule_of_atMost ih
      refine (Rule.bind_of_found (recognizer_of_seen read)).trans ?_
      rw [Rule.bind_pure_apply, value, further]
      simp [Function.comp_def]
  | map _ ih =>
      intro _ _
      exact (Rule.bind_pure_apply _ _ _).trans
        (by rw [Phrase.rule_of_atMost ih, further_zero])
  | located _ _ ih =>
      intro _ _
      refine (Rule.here_bind_apply _ _).trans ?_
      rw [Rule.bind_pure_apply, Phrase.rule_of_atMost ih, further_zero]

/-- A run says what the phrase replies as a rule. -/
theorem reply (run : Run name phrase tokens misses found) :
    phrase.rule name tokens = ⟨misses, found⟩ :=
  Phrase.rule_of_atMost run.reply_atMost

end Run

/-! ## Every phrase has a run -/

/-- A number that goes down along references in front of the first token. -/
def Nonterminal.rank : Nonterminal α → Nat
  | .decorator | .arraySuffix | .mapType | .objectType | .index | .indexField | .letBinding
  | .conditional | .whileLoop | .forLoop | .call => 0
  | .type | .field | .function | .collection | .value | .compound => 1
  | .item | .declaration | .expression => 2
  | .small => 3
  | .simple => 4
  | .statement | .branch => 5

/-- Whether all symbols that a phrase refers to in front of its first token rank below a number. -/
def Phrase.leads (rank : Nat) : {α : Type} → Phrase α → Bool
  | _, .token _ | _, .operation _ => true
  | _, .reference symbol => decide (symbol.rank < rank)
  | _, .sequence first second => first.leads rank && (first.consumes || second.leads rank)
  | _, .choice first second => first.leads rank && second.leads rank
  | _, .optional body | _, .many body | _, .flagged _ body | _, .map _ body | _, .located _ body =>
      body.leads rank

theorem definition_leads (symbol : Nonterminal α) :
    (definition symbol).leads symbol.rank = true := by
  cases symbol <;> rfl

/-- A repetition has a run on tokens on which its body has one, if the body has one on all that are
fewer, too. -/
theorem Phrase.run_many {name : RuleName} {body : Phrase α} (consumes : body.consumes = true)
    {tokens : List Token}
    (inner : ∀ rest : List Token, rest = tokens ∨ rest.length < tokens.length →
      ∃ misses found, Run name body rest misses found) :
    ∃ misses found, Run name (.many body) tokens misses found := by
  -- The list gets shorter with every match of the body.
  induction count : tokens.length using Nat.strongRecOn generalizing tokens with
  | ind size shorter =>
      obtain ⟨misses, found, here⟩ := inner tokens (.inl rfl)
      rcases found with _ | ⟨value, taken⟩
      · exact ⟨_, _, .manyEnd here⟩
      · have progress := here.progress consumes rfl
        have passed := (here.passes rfl).1
        have less : (tokens.drop taken).length < tokens.length := by
          rw [List.length_drop]
          omega
        obtain ⟨later, found, others⟩ := shorter _ (count ▸ less)
          (fun rest le => inner rest (.inr (by rcases le with rfl | le <;> omega))) rfl
        rcases found with _ | ⟨items, more⟩
        · have matched := Rule.many_isSome (body.rule name) (tokens.drop taken)
          rw [show Rule.many (body.rule name) _ = _ from others.reply] at matched
          cases matched
        · exact ⟨_, _, .many consumes here others⟩

/-- A phrase has a run on tokens on which the symbols that it refers to have one: those in front of
its first token on the same number of tokens, and the others on fewer. -/
theorem Phrase.run_of_references {length rank : Nat}
    (references : ∀ {α : Type} (symbol : Nonterminal α) (tokens : List Token),
      tokens.length < length ∨ tokens.length = length ∧ symbol.rank < rank →
        ∃ misses found, Run symbol.name (definition symbol) tokens misses found)
    {name : RuleName} {phrase : Phrase α} (wellFormed : phrase.wellFormed = true)
    {tokens : List Token}
    (short : tokens.length < length ∨ tokens.length = length ∧ phrase.leads rank = true) :
    ∃ misses found, Run name phrase tokens misses found := by
  induction phrase generalizing tokens with
  | token terminal =>
      rcases tokens with _ | ⟨first, rest⟩
      · exact ⟨_, _, .tokenMissed rfl⟩
      · rcases read : terminal.read first with _ | value
        · exact ⟨_, _, .tokenMissed (by simpa using read)⟩
        · exact ⟨_, _, .token read⟩
  | reference symbol =>
      obtain ⟨misses, found, inner⟩ := references symbol tokens (by simpa [leads] using short)
      exact ⟨misses, found, .reference inner⟩
  | sequence first second ihFirst ihSecond =>
      simp only [Phrase.wellFormed, Bool.and_eq_true] at wellFormed
      simp only [leads, Bool.and_eq_true, Bool.or_eq_true] at short
      obtain ⟨misses, found, left⟩ := ihFirst wellFormed.1
        (short.imp_right fun same => ⟨same.1, same.2.1⟩)
      rcases found with _ | ⟨value, taken⟩
      · exact ⟨_, _, .sequenceMissed left⟩
      · have behind : (tokens.drop taken).length < length ∨
            (tokens.drop taken).length = length ∧ second.leads rank = true := by
          have passed := (left.passes rfl).1
          rw [List.length_drop]
          rcases Nat.eq_zero_or_pos taken with none | progress
          · rcases short with short | ⟨same, _, consumes | leads⟩
            · exact .inl (by omega)
            · have := left.progress consumes rfl
              omega
            · exact .inr ⟨by omega, leads⟩
          · exact .inl (by omega)
        obtain ⟨later, found, right⟩ := ihSecond wellFormed.2 behind
        exact ⟨_, _, .sequence left right⟩
  | choice first second ihFirst ihSecond =>
      simp only [Phrase.wellFormed, Bool.and_eq_true] at wellFormed
      simp only [leads, Bool.and_eq_true] at short
      obtain ⟨misses, found, left⟩ := ihFirst wellFormed.1
        (short.imp_right fun same => ⟨same.1, same.2.1⟩)
      rcases found with _ | result
      · obtain ⟨later, found, right⟩ := ihSecond wellFormed.2
          (short.imp_right fun same => ⟨same.1, same.2.2⟩)
        exact ⟨_, _, .choiceSecond left right⟩
      · exact ⟨_, _, .choiceFirst left⟩
  | optional body ih =>
      obtain ⟨misses, found, inner⟩ := ih wellFormed short
      rcases found with _ | ⟨value, taken⟩
      · exact ⟨_, _, .optionalMissed inner⟩
      · exact ⟨_, _, .optional inner⟩
  | many body ih =>
      simp only [Phrase.wellFormed, Bool.and_eq_true] at wellFormed
      refine run_many wellFormed.1 fun rest le => ih wellFormed.2 ?_
      rcases le with rfl | less
      · exact short
      · exact .inl (by omega)
  | flagged character body ih =>
      simp only [Phrase.wellFormed, Bool.and_eq_true] at wellFormed
      have unset : (∀ first ∈ tokens.head?, first.isSymbol character = false) →
          ∃ misses found, Run name (.flagged character body) tokens misses found := by
        intro unset
        obtain ⟨misses, found, inner⟩ := ih wellFormed.2 short
        exact ⟨_, _, .flaggedUnset wellFormed.1 unset inner⟩
      rcases tokens with _ | ⟨first, rest⟩
      · exact unset (by simp)
      · rcases flag : first.isSymbol character with _ | _
        · exact unset (by simp [flag])
        · have fewer : rest.length < length := by
            rw [List.length_cons] at short
            omega
          obtain ⟨misses, found, inner⟩ := ih wellFormed.2 (.inl fewer)
          exact ⟨_, _, .flagged flag inner⟩
  | operation operand ih =>
      simp only [Phrase.wellFormed, Bool.and_eq_true] at wellFormed
      rcases read : Recognizer.operator.look tokens with _ | ⟨operator, taken⟩
      · exact ⟨_, _, .operationMissed read⟩
      · obtain ⟨progress, passed, _⟩ := look_operator_passes read
        have fewer : (tokens.drop taken).length < length := by
          rw [List.length_drop]
          omega
        obtain ⟨misses, found, inner⟩ := ih wellFormed.2 (.inl fewer)
        exact ⟨_, _, .operation wellFormed.1 read inner⟩
  | map build body ih =>
      obtain ⟨misses, found, inner⟩ := ih wellFormed short
      exact ⟨_, _, .map inner⟩
  | located build body ih =>
      simp only [Phrase.wellFormed, Bool.and_eq_true] at wellFormed
      obtain ⟨misses, found, inner⟩ := ih wellFormed.2 short
      exact ⟨_, _, .located wellFormed.1 inner⟩

theorem Nonterminal.run : ∀ {α : Type} (symbol : Nonterminal α) (tokens : List Token),
    ∃ misses found, Run symbol.name (definition symbol) tokens misses found
  | _, symbol, tokens =>
      Phrase.run_of_references (fun symbol tokens _ => symbol.run tokens)
        (definition_wellFormed symbol) (.inr ⟨rfl, definition_leads symbol⟩)
termination_by _ symbol tokens => (tokens.length, symbol.rank)
decreasing_by
  rename_i fewer
  exact Prod.lex_def.mpr fewer

/-- What a phrase replies as a rule is what its run says. -/
theorem Phrase.run (name : RuleName) {phrase : Phrase α} (wellFormed : phrase.wellFormed = true)
    (tokens : List Token) :
    Run name phrase tokens (phrase.rule name tokens).misses (phrase.rule name tokens).found := by
  have fewer : tokens.length < tokens.length + 1 ∨ tokens.length = tokens.length + 1 ∧
      phrase.leads 0 = true := .inl (Nat.lt_succ_self _)
  obtain ⟨misses, found, run⟩ : ∃ misses found, Run name phrase tokens misses found :=
    Phrase.run_of_references (fun symbol tokens _ => symbol.run tokens) wellFormed fewer
  rw [run.reply]
  exact run

end CollectionSchema.Peg
