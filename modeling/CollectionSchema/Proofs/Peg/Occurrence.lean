import CollectionSchema.Proofs.Peg.Reading

/-!
# Parts of a match

Within a match, each token belongs to the matches of the phrases that were tried there
and not given up.  A match with a part marked in it is a run that matches, together with
the way through it that leads to the part (`Occurs`).  Which phrases can be marked is said
by a test on a phrase and on the name of the rule that the phrase belongs to.

Two questions about such a part are answered by looking at phrases only: whether there
can be one at all (`Occurs.not_silent`), and whether it can begin with the first token of
the match (`Occurs.place_pos`).
-/

set_option autoImplicit false

namespace CollectionSchema.Peg

variable {α β : Type}

/-! ## Phrases for single words -/

/-- Whether a terminal asks for an identifier. -/
def Terminal.isIdentifier : Terminal α → Bool
  | .identifier => true
  | _ => false

/-- Whether a terminal asks for a word. -/
def Terminal.asksFor (spelling : String) : Terminal α → Bool
  | .word other => other == spelling
  | _ => false

namespace Phrase

/-- Whether a phrase asks for an identifier. -/
def isIdentifier : {α : Type} → Phrase α → Bool
  | _, .token terminal => terminal.isIdentifier
  | _, _ => false

/-- Whether a phrase asks for one token, and that is a word. -/
def asksFor (spelling : String) : {α : Type} → Phrase α → Bool
  | _, .token terminal => terminal.asksFor spelling
  | _, _ => false

variable {name : RuleName} {phrase : Phrase α} {tokens : List Token} {value : α} {size : Nat}

theorem token_of_isIdentifier (identifier : phrase.isIdentifier = true)
    (reads : phrase.Reads name tokens value size) :
    size = 1 ∧ ∃ first rest, tokens = first :: rest ∧ first.kind = .identifier := by
  obtain ⟨_, run⟩ := reads
  cases phrase with
  | token terminal =>
      cases terminal with
      | identifier =>
          obtain ⟨_, rfl, first, rest, rfl, read⟩ := run.of_token
          exact ⟨rfl, first, rest, rfl, kind_of_read_identifier read⟩
      | _ => cases identifier
  | _ => cases identifier

theorem token_of_asksFor {spelling : String} (asks : phrase.asksFor spelling = true)
    (reads : phrase.Reads name tokens value size) :
    size = 1 ∧ ∃ first rest, tokens = first :: rest ∧ first.isWord spelling = true := by
  obtain ⟨_, run⟩ := reads
  cases phrase with
  | token terminal =>
      cases terminal with
      | word other =>
          obtain ⟨_, rfl, first, rest, rfl, read⟩ := run.of_token
          obtain rfl := eq_of_beq asks
          exact ⟨rfl, first, rest, rfl, read_word_iff.mp read⟩
      | _ => cases asks
  | _ => cases asks

end Phrase

/-! ## Marked parts -/

/-- Some of the phrases that belong to the rules of a grammar. -/
structure Marks where
  covers : {β : Type} → RuleName → Phrase β → Bool

/-- A match of a phrase that has a marked phrase in it: the value of the whole, and how many of its
tokens stand in front of the part for the marked phrase, in this part, and behind it. -/
inductive Occurs (marks : Marks) :
    {α : Type} → RuleName → Phrase α → List Token → α → Nat → Nat → Nat → Prop
  | token {α : Type} {name : RuleName} {terminal : Terminal α} {first : Token} {rest : List Token}
      {value : α} (marked : marks.covers name (.token terminal) = true)
      (read : terminal.read first = some value) :
      Occurs marks name (.token terminal) (first :: rest) value 0 1 0
  | choice {α : Type} {name : RuleName} {first second : Phrase α} {tokens : List Token} {value : α}
      {size : Nat} (marked : marks.covers name (.choice first second) = true)
      (reads : (Phrase.choice first second).Reads name tokens value size) :
      Occurs marks name (.choice first second) tokens value 0 size 0
  | reference {α : Type} {name : RuleName} {symbol : Nonterminal α} {tokens : List Token}
      {value : α} {place size more : Nat}
      (inner : Occurs marks symbol.name (definition symbol) tokens value place size more) :
      Occurs marks name (.reference symbol) tokens value place size more
  | first {α β : Type} {name : RuleName} {first : Phrase α} {second : Phrase β}
      {tokens : List Token} {left : α} {right : β} {place size more behind : Nat}
      (inner : Occurs marks name first tokens left place size more)
      (later : second.Reads name (tokens.drop (place + (size + more))) right behind) :
      Occurs marks name (.sequence first second) tokens (left, right) place size (more + behind)
  | second {α β : Type} {name : RuleName} {first : Phrase α} {second : Phrase β}
      {tokens : List Token} {left : α} {right : β} {taken place size more : Nat}
      (front : first.Reads name tokens left taken)
      (inner : Occurs marks name second (tokens.drop taken) right place size more) :
      Occurs marks name (.sequence first second) tokens (left, right) (taken + place) size more
  | choiceFirst {α : Type} {name : RuleName} {first second : Phrase α} {tokens : List Token}
      {value : α} {place size more : Nat}
      (inner : Occurs marks name first tokens value place size more) :
      Occurs marks name (.choice first second) tokens value place size more
  | choiceSecond {α : Type} {name : RuleName} {first second : Phrase α} {tokens : List Token}
      {value : α} {place size more : Nat} (missed : first.Fails name tokens)
      (inner : Occurs marks name second tokens value place size more) :
      Occurs marks name (.choice first second) tokens value place size more
  | optional {α : Type} {name : RuleName} {body : Phrase α} {tokens : List Token} {value : α}
      {place size more : Nat} (inner : Occurs marks name body tokens value place size more) :
      Occurs marks name (.optional body) tokens (some value) place size more
  | manyFirst {α : Type} {name : RuleName} {body : Phrase α} {tokens : List Token} {item : α}
      {items : List α} {place size more behind : Nat} (consumes : body.consumes = true)
      (inner : Occurs marks name body tokens item place size more)
      (later : (Phrase.many body).Reads name (tokens.drop (place + (size + more))) items behind) :
      Occurs marks name (.many body) tokens (item :: items) place size (more + behind)
  | manyMore {α : Type} {name : RuleName} {body : Phrase α} {tokens : List Token} {item : α}
      {items : List α} {taken place size more : Nat} (consumes : body.consumes = true)
      (front : body.Reads name tokens item taken)
      (inner : Occurs marks name (.many body) (tokens.drop taken) items place size more) :
      Occurs marks name (.many body) tokens (item :: items) (taken + place) size more
  | flagged {α : Type} {name : RuleName} {character : Char} {body : Phrase α} {first : Token}
      {rest : List Token} {value : α} {place size more : Nat}
      (set : first.isSymbol character = true)
      (inner : Occurs marks name body rest value place size more) :
      Occurs marks name (.flagged character body) (first :: rest) (true, value) (1 + place) size
        more
  | flaggedUnset {α : Type} {name : RuleName} {character : Char} {body : Phrase α}
      {tokens : List Token} {value : α} {place size more : Nat} (consumes : body.consumes = true)
      (unset : ∀ first ∈ tokens.head?, first.isSymbol character = false)
      (inner : Occurs marks name body tokens value place size more) :
      Occurs marks name (.flagged character body) tokens (false, value) place size more
  | operation {α : Type} {name : RuleName} {operand : Phrase α} {tokens : List Token}
      {operator : Operator} {value : α} {taken place size more : Nat}
      (consumes : operand.consumes = true)
      (read : Recognizer.operator.look tokens = some (operator, taken))
      (inner : Occurs marks name operand (tokens.drop taken) value place size more) :
      Occurs marks name (.operation operand) tokens (operator, value) (taken + place) size more
  | map {α β : Type} {name : RuleName} {build : α → β} {body : Phrase α} {tokens : List Token}
      {value : α} {place size more : Nat}
      (inner : Occurs marks name body tokens value place size more) :
      Occurs marks name (.map build body) tokens (build value) place size more
  | located {α β : Type} {name : RuleName} {build : Position → α → β} {body : Phrase α}
      {tokens : List Token} {value : α} {place size more : Nat} (consumes : body.consumes = true)
      (inner : Occurs marks name body tokens value place size more) :
      Occurs marks name (.located build body) tokens
        (build ((tokens.head?.map Token.position).getD Position.start) value) place size more

namespace Occurs

variable {marks : Marks} {name : RuleName} {phrase : Phrase α} {tokens : List Token} {value : α}
  {place size more : Nat}

/-- A match with a part marked in it is a match. -/
theorem reads (part : Occurs marks name phrase tokens value place size more) :
    phrase.Reads name tokens value (place + (size + more)) := by
  have onward : ∀ {place size more behind : Nat},
      place + (size + (more + behind)) = place + (size + more) + behind := by omega
  induction part with
  | token _ read => exact .token read
  | choice _ reads => simpa using reads
  | reference _ ih => exact ih.reference
  | first _ later ih =>
      rw [onward]
      exact ih.sequence later
  | second front _ ih =>
      rw [Nat.add_assoc]
      exact front.sequence ih
  | choiceFirst _ ih => exact ih.choiceFirst
  | choiceSecond missed _ ih => exact ih.choiceSecond missed
  | optional _ ih => exact ih.optional
  | manyFirst consumes _ later ih =>
      rw [onward]
      exact .many consumes ih later
  | manyMore consumes front _ ih =>
      rw [Nat.add_assoc]
      exact .many consumes front ih
  | flagged set _ ih =>
      rw [Nat.add_assoc]
      exact .flagged set ih
  | flaggedUnset consumes unset _ ih => exact .flaggedUnset consumes unset ih
  | operation consumes read _ ih =>
      rw [Nat.add_assoc]
      exact .operation consumes read ih
  | map _ ih => exact ih.map
  | located consumes _ ih => exact ih.located consumes

/-- The marked part is a match of a marked phrase. -/
theorem marked (part : Occurs marks name phrase tokens value place size more) :
    ∃ (β : Type) (rule : RuleName) (inner : Phrase β) (found : β),
      marks.covers rule inner = true ∧ inner.Reads rule (tokens.drop place) found size := by
  induction part with
  | token marked read => exact ⟨_, _, _, _, marked, .token read⟩
  | choice marked reads => exact ⟨_, _, _, _, marked, reads⟩
  | second _ _ ih | manyMore _ _ _ ih | operation _ _ _ ih => rwa [List.drop_drop] at ih
  | flagged _ _ ih => rwa [Nat.add_comm, List.drop_succ_cons]
  | reference _ ih | first _ _ ih | choiceFirst _ ih | choiceSecond _ _ ih | optional _ ih
  | manyFirst _ _ _ ih | flaggedUnset _ _ _ ih | map _ ih | located _ _ ih => exact ih

theorem of_token {terminal : Terminal α}
    (part : Occurs marks name (.token terminal) tokens value place size more) :
    marks.covers name (.token terminal) = true ∧ place = 0 ∧ more = 0 := by
  cases part with
  | token marked _ => exact ⟨marked, rfl, rfl⟩

theorem of_choice {first second : Phrase α}
    (part : Occurs marks name (.choice first second) tokens value place size more) :
    marks.covers name (.choice first second) = true ∨
      Occurs marks name first tokens value place size more ∨
      Occurs marks name second tokens value place size more := by
  cases part with
  | choice marked _ => exact .inl marked
  | choiceFirst inner => exact .inr (.inl inner)
  | choiceSecond _ inner => exact .inr (.inr inner)

end Occurs

/-! ## Where nothing is marked -/

/-- A phrase in which nothing is marked, if this is so of the symbols that are set aside. -/
def Phrase.silent (marks : Marks) (aside : {β : Type} → Nonterminal β → Bool) (name : RuleName) :
    {α : Type} → Phrase α → Bool
  | _, .token terminal => !marks.covers name (.token terminal)
  | _, .reference symbol => aside symbol
  | _, .sequence first second => first.silent marks aside name && second.silent marks aside name
  | _, .choice first second =>
      !marks.covers name (.choice first second) &&
        (first.silent marks aside name && second.silent marks aside name)
  | _, .optional body | _, .many body | _, .flagged _ body | _, .operation body | _, .map _ body
  | _, .located _ body => body.silent marks aside name

/-- Below symbols whose definitions mark nothing, nothing is marked. -/
theorem Occurs.not_silent {marks : Marks} {aside : {β : Type} → Nonterminal β → Bool}
    (closed : ∀ {β : Type} (symbol : Nonterminal β), aside symbol = true →
      (definition symbol).silent marks aside symbol.name = true)
    {name : RuleName} {phrase : Phrase α} {tokens : List Token} {value : α} {place size more : Nat}
    (part : Occurs marks name phrase tokens value place size more) :
    phrase.silent marks aside name ≠ true := by
  induction part with
  | token marked _ | choice marked _ => simp [Phrase.silent, marked]
  | @reference _ _ symbol _ _ _ _ _ _ ih => exact fun silent => ih (closed symbol silent)
  | first _ _ ih => exact fun silent => ih (Bool.and_eq_true _ _ |>.mp silent).1
  | second _ _ ih => exact fun silent => ih (Bool.and_eq_true _ _ |>.mp silent).2
  | choiceFirst _ ih =>
      exact fun silent => ih (Bool.and_eq_true _ _ |>.mp (Bool.and_eq_true _ _ |>.mp silent).2).1
  | choiceSecond _ _ ih =>
      exact fun silent => ih (Bool.and_eq_true _ _ |>.mp (Bool.and_eq_true _ _ |>.mp silent).2).2
  | optional _ ih | manyFirst _ _ _ ih | manyMore _ _ _ ih | flagged _ _ ih
  | flaggedUnset _ _ _ ih | operation _ _ _ ih | map _ ih | located _ _ ih => exact ih

/-! ## Where nothing is marked at the first token -/

/-- A phrase in which nothing is marked that begins with the first token, if this is so of the
symbols that are set aside. -/
def Phrase.delays (marks : Marks) (aside : {β : Type} → Nonterminal β → Bool) (name : RuleName) :
    {α : Type} → Phrase α → Bool
  | _, .token terminal => !marks.covers name (.token terminal)
  | _, .reference symbol => aside symbol
  | _, .sequence first second =>
      first.delays marks aside name && (first.consumes || second.delays marks aside name)
  | _, .choice first second =>
      !marks.covers name (.choice first second) &&
        (first.delays marks aside name && second.delays marks aside name)
  | _, .operation _ => true
  | _, .optional body | _, .many body | _, .flagged _ body | _, .map _ body | _, .located _ body =>
      body.delays marks aside name

theorem Occurs.place_pos {marks : Marks} {aside : {β : Type} → Nonterminal β → Bool}
    (closed : ∀ {β : Type} (symbol : Nonterminal β), aside symbol = true →
      (definition symbol).delays marks aside symbol.name = true)
    {name : RuleName} {phrase : Phrase α} {tokens : List Token} {value : α} {place size more : Nat}
    (part : Occurs marks name phrase tokens value place size more) :
    phrase.delays marks aside name = true → 0 < place := by
  induction part with
  | token marked _ | choice marked _ => simp [Phrase.delays, marked]
  | @reference _ _ symbol _ _ _ _ _ _ ih => exact fun delays => ih (closed symbol delays)
  | first _ _ ih => exact fun delays => ih (Bool.and_eq_true _ _ |>.mp delays).1
  | second front _ ih =>
      intro delays
      obtain ⟨_, run⟩ := front
      rcases Bool.or_eq_true _ _ |>.mp (Bool.and_eq_true _ _ |>.mp delays).2 with consumes | delays
      · exact Nat.add_pos_left (run.progress consumes rfl) _
      · exact Nat.add_pos_right _ (ih delays)
  | choiceFirst _ ih =>
      exact fun delays => ih (Bool.and_eq_true _ _ |>.mp (Bool.and_eq_true _ _ |>.mp delays).2).1
  | choiceSecond _ _ ih =>
      exact fun delays => ih (Bool.and_eq_true _ _ |>.mp (Bool.and_eq_true _ _ |>.mp delays).2).2
  | manyMore consumes front _ _ =>
      obtain ⟨_, run⟩ := front
      exact fun _ => Nat.add_pos_left (run.progress consumes rfl) _
  | flagged _ _ _ => exact fun _ => Nat.add_pos_left Nat.one_pos _
  | operation _ read _ _ => exact fun _ => Nat.add_pos_left (look_operator_passes read).1 _
  | optional _ ih | manyFirst _ _ _ ih | flaggedUnset _ _ _ ih | map _ ih | located _ _ ih =>
      exact ih

end CollectionSchema.Peg
