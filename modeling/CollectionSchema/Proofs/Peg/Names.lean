import CollectionSchema.Proofs.Peg.Keeping
import CollectionSchema.Proofs.Peg.LetName

/-!
# Another name for a name

Where a program declares a name, or passes one to a decorator, the grammar asks for any
identifier.  So another identifier is read there as well (`name_refills`).  What is left
to show is that around it everything is read as before.

In the body of a function a name is declared behind the word `let` only
(`Occurs.endsInLet`), and how a part of a body turns out does not depend on a name there.
So all that was read in front of the name is read again, and all that was given up is
given up again (`Kept.in_body`).
-/

set_option autoImplicit false

namespace CollectionSchema.Peg

variable {α β : Type}

/-! ## The names of a program -/

/-- The rules in which an identifier is a declared name or the argument of a decorator. -/
def declares : RuleName → Bool
  | .collection | .field | .function | .indexField | .decorator | .letBinding => true
  | _ => false

/-- The names that a program declares, and the arguments of its decorators. -/
def declaredNames : Marks where
  covers name phrase := declares name && phrase.isIdentifier

/-- The values of a marked phrase are the names themselves. -/
def IsTheName : {α : Type} → RuleName → Phrase α → (String → α) → Prop
  | _, name, .token .identifier, values => declares name = true ∧ values = id
  | _, _, _, _ => False

/-- Tokens that begin with a name, with all names that can stand there. -/
def nameVariation (position : Position) (rest : List Token) : Variation String where
  marks := declaredNames
  fits := IsTheName
  lists name := ⟨.identifier, name, position⟩ :: rest
  sizes _ := 1
  same _ _ := rfl
  named _ := ⟨_, rest, rfl, rfl⟩

/-- Whether a symbol has no declared name in it. -/
def Nonterminal.namesNothing : Nonterminal α → Bool
  | .arraySuffix | .expression | .value | .call => true
  | _ => false

theorem declaredNames_silent (symbol : Nonterminal α) (aside : symbol.namesNothing = true) :
    (definition symbol).silent declaredNames Nonterminal.namesNothing symbol.name = true := by
  cases symbol <;> first | exact absurd aside Bool.false_ne_true | rfl

/-- Whether a symbol does not begin with a declared name. -/
def Nonterminal.namesLater : Nonterminal α → Bool
  | .declaration | .item | .field | .indexField | .function => false
  | _ => true

theorem declaredNames_delays (symbol : Nonterminal α) (aside : symbol.namesLater = true) :
    (definition symbol).delays declaredNames Nonterminal.namesLater symbol.name = true := by
  cases symbol <;> first | exact absurd aside Bool.false_ne_true | rfl

namespace Phrase

/-- Whether a phrase does not begin with a declared name. -/
def namesLater (name : RuleName) (phrase : Phrase α) : Bool :=
  phrase.delays declaredNames Nonterminal.namesLater name

/-- Whether declared names stand in a phrase behind the word `let` or at its beginning. -/
def letBound (name : RuleName) : {α : Type} → Phrase α → Bool
  | _, .token _ | _, .reference _ => true
  | _, .sequence first second =>
      first.letBound name && (second.letBound name &&
        (first.asksFor "let" || second.namesLater name))
  | _, .choice first second =>
      first.letBound name && (second.letBound name && second.namesLater name)
  | _, .many body | _, .operation body => body.letBound name && body.namesLater name
  | _, .optional body | _, .flagged _ body | _, .map _ body | _, .located _ body =>
      body.letBound name

end Phrase

theorem definition_letBound (symbol : Nonterminal α) (inside : symbol.inBody = true) :
    (definition symbol).letBound symbol.name = true := by
  cases symbol <;> first | exact absurd inside Bool.false_ne_true | rfl

/-! ## The name itself -/

section Names

variable {position : Position} {rest : List Token} {here : String} {name : RuleName}

/-- Where one name is declared, every name can be. -/
theorem name_refills {phrase : Phrase α} {follow : List Token → Prop} :
    phrase.Refills (nameVariation position rest) here name follow := by
  intro marked value reads _
  obtain ⟨declaring, identifier⟩ := Bool.and_eq_true _ _ |>.mp marked
  cases phrase with
  | token terminal =>
      cases terminal with
      | identifier =>
          have called : ∀ one, (Phrase.token Terminal.identifier).Reads name
              ((nameVariation position rest).lists one) one 1 := fun _ => .token rfl
          obtain ⟨_, run⟩ := reads
          obtain ⟨_, again⟩ := called here
          obtain ⟨_, matched⟩ := run.unique again
          cases matched
          exact ⟨id, rfl, ⟨declaring, rfl⟩, called⟩
      | _ => cases identifier
  | _ => cases identifier

theorem Occurs.namesLater {phrase : Phrase α} {tokens : List Token} {value : α}
    {place size more : Nat} (part : Occurs declaredNames name phrase tokens value place size more)
    (later : phrase.namesLater name = true) : 0 < place :=
  part.place_pos declaredNames_delays later

/-! ## Names in bodies -/

theorem renames_name (one : String) :
    Renames ⟨.identifier, here, position⟩ ⟨.identifier, one, position⟩ :=
  ⟨rfl, rfl, rfl⟩

theorem EndsInLet.append {front back : List Token} (ends : EndsInLet back) (some : back ≠ []) :
    EndsInLet (front ++ back) := by
  rwa [EndsInLet, List.getLast?_append_of_ne_nil _ some]

theorem EndsInLet.cons {first : Token} {back : List Token} (is : first.isWord "let" = true)
    (ends : EndsInLet back) : EndsInLet (first :: back) := by
  rcases back with _ | ⟨next, back⟩
  · rintro _ ⟨⟩
    exact is
  · exact ends

/-- What is marked behind some tokens is marked behind these and the tokens in front of it. -/
theorem Occurs.endsInLet_behind {phrase : Phrase α} {tokens : List Token} {value : α}
    {taken place size more : Nat}
    (part : Occurs declaredNames name phrase (tokens.drop taken) value place size more)
    (later : phrase.namesLater name = true) (ends : EndsInLet ((tokens.drop taken).take place)) :
    EndsInLet (tokens.take (taken + place)) := by
  rw [List.take_add]
  refine ends.append (List.ne_nil_of_length_pos ?_)
  obtain ⟨_, run⟩ := part.reads
  have inside := (run.passes rfl).1
  have positive := part.namesLater later
  rw [List.length_take]
  omega

/-- In a body, what stands in front of a declared name ends in the word `let`. -/
theorem Occurs.endsInLet {phrase : Phrase α} {tokens : List Token} {value : α}
    {place size more : Nat} (part : Occurs declaredNames name phrase tokens value place size more) :
    phrase.inBody = true → phrase.letBound name = true → EndsInLet (tokens.take place) := by
  induction part with
  | token _ _ | choice _ _ => simp [EndsInLet]
  | @reference _ _ symbol _ _ _ _ _ _ ih =>
      exact fun inside _ => ih (definition_inBody symbol inside) (definition_letBound symbol inside)
  | first _ _ ih =>
      intro inside bound
      exact ih (Bool.and_eq_true _ _ |>.mp inside).1 (Bool.and_eq_true _ _ |>.mp bound).1
  | second front inner ih =>
      intro inside bound
      rw [Phrase.inBody_sequence_iff] at inside
      simp only [Phrase.letBound, Bool.and_eq_true, Bool.or_eq_true] at bound
      have ends := ih inside.2 bound.2.1
      -- Either the first part is the word itself, or the name does not begin the second part.
      rcases bound.2.2 with asks | later
      · obtain ⟨rfl, word, others, rfl, is⟩ := Phrase.token_of_asksFor asks front
        rw [Nat.add_comm, List.take_succ_cons]
        exact ends.cons is
      · exact inner.endsInLet_behind later ends
  | choiceFirst _ ih =>
      intro inside bound
      exact ih (Bool.and_eq_true _ _ |>.mp inside).1 (Bool.and_eq_true _ _ |>.mp bound).1
  | choiceSecond _ _ ih =>
      intro inside bound
      rw [Phrase.inBody_choice_iff] at inside
      simp only [Phrase.letBound, Bool.and_eq_true] at bound
      exact ih inside.2 bound.2.1
  | manyFirst _ _ _ ih =>
      intro inside bound
      exact ih inside (Bool.and_eq_true _ _ |>.mp bound).1
  | manyMore _ _ inner ih =>
      intro inside bound
      exact inner.endsInLet_behind (Bool.and_eq_true _ _ |>.mp bound).2 (ih inside bound)
  | operation _ _ inner ih =>
      intro inside bound
      obtain ⟨bound, later⟩ := Bool.and_eq_true _ _ |>.mp bound
      exact inner.endsInLet_behind later (ih inside bound)
  | flagged _ _ _ | flaggedUnset _ _ _ _ =>
      intro inside
      cases inside
  | optional _ ih | map _ ih | located _ _ ih => exact ih

namespace Phrase

/-- What is read in front of a name in a body is read again in front of every name. -/
theorem Ahead.in_body {first : Phrase α} {second : Phrase β} (inside : first.inBody = true)
    (tranquil : first.Tranquil = true) (insideSecond : second.inBody = true)
    (bound : second.letBound name = true) (later : second.namesLater name = true) :
    first.Ahead (nameVariation position rest) here name second := by
  constructor
  rintro front _ _ _ taken _ _ one ⟨_, run⟩ le part _
  have positive := part.namesLater later
  have ends := part.endsInLet insideSecond bound
  rw [← List.length_drop, List.take_left] at ends
  have whole : EndsInLet (front.take taken ++ front.drop taken) :=
    ends.append (List.ne_nil_of_length_pos (by rwa [List.length_drop]))
  rw [List.take_append_drop] at whole
  obtain ⟨_, _, again, alike⟩ := run.renamed (renames_name one) rfl whole inside tranquil
    fun none => by simp [none] at positive
  -- What is read ends in front of the name, so its value is the same.
  cases alike with
  | same => exact ⟨_, again⟩
  | inside lt => exact absurd lt (Nat.not_lt.mpr le)

/-- What is given up at a name in a body is given up at every name. -/
theorem Instead.in_body {first second : Phrase α} {follow : List Token → Prop}
    (inside : first.inBody = true) (tranquil : first.Tranquil = true)
    (insideSecond : second.inBody = true) (bound : second.letBound name = true)
    (later : second.namesLater name = true) :
    first.Instead (nameVariation position rest) here name follow second := by
  constructor
  rintro front _ _ _ _ one ⟨_, run⟩ part _ _
  have positive := part.namesLater later
  have ends := part.endsInLet insideSecond bound
  rw [List.take_left] at ends
  obtain ⟨_, _, again, alike⟩ := run.renamed (renames_name one) rfl ends inside tranquil
    fun none => by simp [none] at positive
  obtain rfl := alike.none
  exact ⟨_, again⟩

/-- In a body everything is read around a name as before. -/
theorem Kept.in_body {phrase : Phrase α} {follow : List Token → Prop}
    (inside : phrase.inBody = true) (tranquil : phrase.Tranquil = true)
    (bound : phrase.letBound name = true) :
    phrase.Kept (nameVariation position rest) here name follow := by
  induction phrase generalizing follow with
  | token terminal => exact name_refills
  | reference symbol => trivial
  | sequence first second ihFirst ihSecond =>
      rw [inBody_sequence_iff] at inside
      rw [tranquil_sequence_iff] at tranquil
      simp only [letBound, Bool.and_eq_true, Bool.or_eq_true] at bound
      refine ⟨ihFirst inside.1 tranquil.1 bound.1, ihSecond inside.2 tranquil.2.1 bound.2.1, ?_⟩
      rcases bound.2.2 with asks | later
      · cases first with
        | token terminal => exact .token
        | _ => cases asks
      · exact .in_body inside.1 tranquil.1 inside.2 bound.2.1 later
  | choice first second ihFirst ihSecond =>
      rw [inBody_choice_iff] at inside
      rw [tranquil_choice_iff] at tranquil
      simp only [letBound, Bool.and_eq_true] at bound
      exact ⟨name_refills, ihFirst inside.1 tranquil.1 bound.1,
        ihSecond inside.2 tranquil.2 bound.2.1,
        .in_body inside.1 tranquil.1 inside.2 bound.2.1 bound.2.2⟩
  | many body ih =>
      obtain ⟨tranquil, _⟩ := Bool.and_eq_true _ _ |>.mp tranquil
      obtain ⟨boundBody, later⟩ := Bool.and_eq_true _ _ |>.mp bound
      exact ⟨ih inside tranquil boundBody, .in_body inside tranquil inside bound later⟩
  | operation body ih => exact ih inside tranquil (Bool.and_eq_true _ _ |>.mp bound).1
  | flagged _ _ _ => cases inside
  | optional _ ih | map _ _ ih | located _ _ ih => exact ih inside tranquil bound

end Phrase

end Names

end CollectionSchema.Peg
