import CollectionSchema.Proofs.Peg.Names
import CollectionSchema.Proofs.Peg.TypeReading

/-!
# What is kept around a name

Outside of bodies each symbol has its own reason why all is read around a declared name
as before (`declaredNames_kept`).  What stands in front of the name is closed off by a
mark or by the word that the name is, and nothing looks at the text of the next word
there.  An alternative that was given up for the one with the name in it is given up at
its first token, at the mark behind the name, or wherever the other alternative is read.
-/

set_option autoImplicit false

namespace CollectionSchema.Peg

open Phrase (behind before between braced separated)

variable {α β H : Type}

namespace Phrase

/-! ## Common shapes -/

section Shapes

variable {variation : Variation H} {here : H} {name : RuleName}

/-- A phrase is read again behind a mark if it is read again. -/
theorem Ahead.behind {terminal : Terminal Unit} {first : Phrase α} {second : Phrase β}
    (ahead : first.Ahead variation here name second) :
    (behind terminal first).Ahead variation here name second := by
  constructor
  rintro front _ _ _ taken _ _ one ⟨_, run⟩ le part reads
  obtain ⟨token, rest, _, count, same, read, inner, _, rfl⟩ := run.of_behind
  rcases front with _ | ⟨opening, front⟩
  · rw [List.length_nil] at le
    omega
  obtain ⟨rfl, rfl⟩ := List.cons.inj same
  rw [Nat.add_comm 1 count, List.drop_succ_cons] at part reads
  rw [List.length_cons, Nat.add_sub_add_right] at part
  rw [List.length_cons, Nat.add_comm 1 count] at le
  exact .behind read (ahead.again ⟨_, inner⟩ (Nat.le_of_succ_le_succ le) part reads)

/-- What is in brackets is read again. -/
theorem Ahead.between {brackets : Brackets} (balanced : brackets.Balanced) {body : Phrase α}
    (level : body.level brackets 0 = some 0) {second : Phrase β} :
    (between brackets.opening brackets.closing body).Ahead variation here name second :=
  .of_lt fun run => run.between_le balanced level

theorem Kept.separated {body : Phrase α} {follow : List Token → Prop}
    (kept : body.Kept variation here name fun _ => True)
    (ahead : body.Ahead variation here name (.many (Phrase.behind (.mark ',') body)))
    (unmarked : variation.marks.covers name (.token (.mark ',')) = false) :
    (separated body).Kept variation here name follow :=
  ⟨kept.mono fun _ _ => trivial, ⟨.behind unmarked kept, ahead.behind⟩, ahead⟩

/-- What fails at the first token fails again, if the part does not begin with it. -/
theorem Instead.of_head {first second : Phrase α} {follow : List Token → Prop}
    (late : ∀ {tokens : List Token} {value : α} {place size more : Nat},
      Occurs variation.marks name second tokens value place size more → 0 < place)
    (fails : ∀ {head : Token} {tail others : List Token} {value : α} {place size more : Nat},
      Occurs variation.marks name second (head :: tail) value place size more →
      first.Fails name (head :: others)) :
    first.Instead variation here name follow second := by
  constructor
  rintro front _ _ _ _ _ _ part _ _
  rcases front with _ | ⟨head, front⟩
  · exact absurd (late part) (Nat.lt_irrefl 0)
  · exact fails part

end Shapes

/-! ## In front of a name -/

section Names

variable {position : Position} {rest : List Token} {here : String} {name : RuleName}

theorem Ahead.decorator : (Phrase.reference Nonterminal.decorator).Ahead
    (nameVariation position rest) here name (.many (.reference .decorator)) := by
  refine .of_le (fun run others positive => ?_) fun part => part.namesLater rfl
  refine decorator_le run.tried fun token head => ?_
  by_contra parenthesis
  obtain ⟨_, later⟩ := others
  obtain rfl := decorators_at_parenthesis later head (Bool.not_eq_false _ |>.mp parenthesis)
  exact absurd positive (Nat.lt_irrefl 0)

/-- Between fields with commas, a field is read again. -/
theorem Ahead.field : (Phrase.reference Nonterminal.field).Ahead (nameVariation position rest) here
    .function (.many (Phrase.behind (.mark ',') (.reference .field))) := by
  refine .of_le (fun run others positive => ?_) fun part => part.namesLater rfl
  obtain ⟨_, later⟩ := others
  rcases later.tried with ⟨_, matched⟩ | ⟨_, _, _, _, _, _, inner, _, _, matched⟩ <;> cases matched
  · exact absurd positive (Nat.lt_irrefl 0)
  · obtain ⟨comma, _, _, _, same, read, _⟩ := inner.of_behind
    exact field_le run.tried (.of_mark same (read_mark_iff.mp read) (by decide) (by decide))

/-- The name of a function is read again in front of its parameters. -/
theorem Ahead.functionName : functionName.Ahead (nameVariation position rest) here .function
    functionTail :=
  .of_le (fun run tail _ => (name_le run (exists_head_of_functionTail tail)).1)
    fun part => part.namesLater rfl

/-- The result of a function is read again in front of its body. -/
theorem Ahead.result : (Phrase.optional (Phrase.behind (.mark ':') (.reference .type))).Ahead
    (nameVariation position rest) here .function (braced (.reference .statement)) := by
  refine .of_le (fun run body _ => ?_) fun part => part.namesLater rfl
  obtain ⟨_, enclosed⟩ := body
  exact result_le run (exists_head_of_between enclosed)

/-- A field of an index is sealed. -/
theorem indexField_lt {tokens : List Token} {misses : List Miss} {field : IndexField} {taken : Nat}
    (run : Run .indexField (definition .indexField) tokens misses (some (field, taken))) :
    ∀ miss ∈ misses, miss.position < taken := by
  rcases run.tried with ⟨_, ordered⟩ | ⟨front, later, ordered, plain, rfl⟩
  · obtain ⟨_, bracketed⟩ := ordered.of_located
    exact bracketed.between_le Brackets.balanced_squares rfl
  · obtain ⟨_, named⟩ := plain.of_located
    obtain ⟨rfl, rfl, first, _, rfl, read⟩ := named.of_token
    have noMark : first.isSymbol '[' = false :=
      isSymbol_of_kind (by rw [kind_of_read_identifier read]; decide) '['
    intro miss member
    rw [List.append_nil] at member
    rw [ordered.noted_here (by simp [Phrase.forecast, Phrase.between, Phrase.behind, Terminal.read,
      noMark]) miss member]
    exact Nat.one_pos

/-! ## Alternatives that are given up -/

/-- Where the name of a function stands, no name stands behind the word. -/
theorem Instead.functionName : (Phrase.behind (.word "function") (.token .identifier)).Instead
    (nameVariation position rest) here .function
    (fun rest => ∃ value taken, functionTail.Reads .function rest value taken)
    (.token .identifier) := by
  constructor
  rintro front _ _ _ _ _ _ part ⟨_, _, tail⟩ _
  obtain ⟨_, alone, rfl⟩ := part.of_token
  obtain rfl := List.eq_nil_of_length_eq_zero alone
  obtain ⟨opening, head, mark⟩ := exists_head_of_functionTail tail
  obtain ⟨others, rfl⟩ := List.head?_eq_some_iff.mp head
  exact functionName_word_fails mark

/-- A field of an index that is a name alone is not in brackets. -/
theorem Instead.indexField {build : Position → String × SortOrder → IndexField}
    {plain : Position → String → IndexField} {follow : List Token → Prop} :
    (Phrase.located build (Phrase.between '[' ']'
      (.sequence (.token .identifier) (Phrase.behind (.mark ',') (.token .sortOrder))))).Instead
      (nameVariation position rest) here .indexField follow
      (.located plain (.token .identifier)) := by
  refine .of_fails fun reads => ?_
  obtain ⟨_, run⟩ := reads
  obtain ⟨_, named⟩ := run.of_located
  obtain ⟨_, _, first, _, rfl, read⟩ := named.of_token
  refine .located rfl (.behind (unread_mark ?_))
  rintro _ ⟨⟩
  exact isSymbol_of_kind (by rw [kind_of_read_identifier read]; decide) '['

/-- The phrase for a type that is no basic type and no map. -/
def otherType : Phrase SchemaType :=
  .choice (.reference .objectType) (.located .foreign (.token .identifier))

/-- In a type that is no basic type and no map, names are declared behind a brace only. -/
theorem exists_brace_of_otherType {tokens : List Token} {value : SchemaType} {place size more : Nat}
    (part : Occurs declaredNames .type otherType tokens value place size more) :
    ∃ brace ∈ tokens.head?, brace.isSymbol '\x7b' = true := by
  rcases part.of_choice with marked | object | foreign
  · cases marked
  · obtain ⟨_, run⟩ := object.reads.of_reference
    obtain ⟨_, body⟩ := run.of_located
    exact exists_head_of_between body
  · exact absurd rfl (foreign.not_silent declaredNames_silent)

theorem Instead.mapType {follow : List Token → Prop} :
    (Phrase.reference Nonterminal.mapType).Instead (nameVariation position rest) here .type follow
      otherType := by
  refine .of_head (fun part => part.namesLater rfl) fun part => ?_
  obtain ⟨_, ⟨⟩, brace⟩ := exists_brace_of_otherType part
  exact .of_forecast rfl (by simp [Phrase.forecast, Nonterminal.starts, (isSymbol_iff.mp brace).1])

theorem Instead.basicType {follow : List Token → Prop} :
    basicPhrase.Instead (nameVariation position rest) here .type follow
      (.choice (.reference .mapType) otherType) := by
  refine .of_head (fun part => part.namesLater rfl) fun part => basicPhrase_fails ?_
  rcases part.of_choice with marked | map | other
  · cases marked
  · obtain ⟨_, run⟩ := map.reads.of_reference
    obtain ⟨_, body⟩ := run.of_located
    obtain ⟨_, _, _, _, same, read, _⟩ := body.of_behind
    cases same
    rw [read_basicType (read_word_iff.mp read)]
    rfl
  · obtain ⟨_, ⟨⟩, brace⟩ := exists_brace_of_otherType other
    simp [Terminal.read, (isSymbol_iff.mp brace).1]

end Names

end Phrase

/-! ## All symbols -/

section Names

variable {position : Position} {rest : List Token} {here : String}

open Phrase

/-- Around a declared name everything is read as before. -/
theorem declaredNames_kept (symbol : Nonterminal α) :
    (definition symbol).Kept (nameVariation position rest) here symbol.name fun _ => True := by
  have decorators : ∀ {name : RuleName} {follow : List Token → Prop},
      (Phrase.many (.reference .decorator)).Kept (nameVariation position rest) here name follow :=
    ⟨trivial, .decorator⟩
  have named : ∀ {name : RuleName} {follow : List Token → Prop},
      (Phrase.token .identifier).Kept (nameVariation position rest) here name follow :=
    name_refills
  -- Symbols without names and symbols of bodies need no look at their definitions.
  rcases aside : symbol.namesNothing with _ | _
  rcases inside : symbol.inBody with _ | _
  · cases symbol with
    | declaration => exact ⟨name_refills, trivial, trivial, .collection⟩
    | collection =>
        refine ⟨decorators, .behind rfl ⟨name_refills, .behind rfl (.before ⟨trivial, .items⟩ rfl),
          .token⟩, .decorators fun token other => ?_⟩
        simp [Phrase.behind, Phrase.forecast, Terminal.read, Token.isWord, other]
    | item =>
        exact ⟨name_refills, .before trivial rfl,
          ⟨name_refills, trivial, .before trivial rfl, .function⟩, .field⟩
    | field =>
        refine ⟨decorators, ⟨name_refills, .behind rfl trivial, .token⟩,
          .decorators fun token other => ?_⟩
        simp [Phrase.forecast, Terminal.read, other]
    | index =>
        exact .behind rfl ⟨name_refills, .behind rfl (.before
          (.separated trivial (.of_lt fun run => indexField_lt run.tried) rfl) rfl), .token⟩
    | indexField =>
        exact ⟨name_refills, .behind rfl (.before
          ⟨name_refills, .behind rfl name_refills, .token⟩ rfl), named, .indexField⟩
    | function =>
        have called : functionName.Kept (nameVariation position rest) here .function fun rest =>
            ∃ value taken, functionTail.Reads .function rest value taken :=
          ⟨name_refills, .behind rfl name_refills, name_refills, .functionName⟩
        have tail : functionTail.Kept (nameVariation position rest) here .function fun _ => True :=
          ⟨.behind rfl (.before (.separated trivial .field rfl) rfl),
            ⟨.behind rfl trivial, .in_body rfl rfl rfl, .result⟩,
            .between Brackets.balanced_parentheses rfl⟩
        refine ⟨decorators, ⟨called, tail, .functionName⟩, .decorators fun token other => ?_⟩
        simp [Phrase.forecast, Phrase.behind, Terminal.read, Token.isWord, other]
    | decorator =>
        exact .behind rfl ⟨name_refills, .behind rfl (.before name_refills rfl), .token⟩
    | type =>
        exact ⟨name_refills, ⟨name_refills, trivial, .token⟩, ⟨name_refills, trivial,
          ⟨name_refills, trivial, named, .of_silent declaredNames_silent rfl⟩, .mapType⟩,
          .basicType⟩
    | mapType =>
        exact .behind rfl (.behind rfl (.before
          ⟨name_refills, .behind rfl trivial, .token⟩ rfl))
    | objectType =>
        exact .behind rfl (.before ⟨.before trivial rfl, .of_lt ended_field_lt⟩ rfl)
    | _ => first | exact Bool.noConfusion inside | exact Bool.noConfusion aside
  · exact .in_body (definition_inBody symbol inside) (definition_tranquil symbol inside)
      (definition_letBound symbol inside)
  · exact .of_silent declaredNames_silent (declaredNames_silent symbol aside)

end Names

end CollectionSchema.Peg
