import CollectionSchema.Proofs.Exchange
import CollectionSchema.Proofs.PlaceIndependence

/-!
# The word in front of the name of a function

A function may have the word `function` in front of its name or not, and the name can be
that word itself.  So a name with the word and a name without can be exchanged for each
other (`wordVariation`): the decorators in front of them are read again, what was given
up for the function is given up again, and the parenthesis behind them tells that the
name has ended (`wordVariation_kept`).

The values of the two differ in places only, so the programs are the same when all places
are made one (`parse_function_word`).
-/

set_option autoImplicit false

namespace CollectionSchema

namespace Peg

open Phrase (behind before between braced separated)

variable {α : Type}

/-! ## The phrase for the name of a function -/

namespace Phrase

/-- Whether a phrase asks for a word with an identifier behind it. -/
def isIdentifierBehind (spelling : String) : {α : Type} → Phrase α → Bool
  | _, .map _ body => body.isIdentifierBehind spelling
  | _, .sequence first second => first.asksFor spelling && second.isIdentifier
  | _, _ => false

variable {name : RuleName} {phrase : Phrase α} {tokens : List Token} {value : α} {size : Nat}

theorem tokens_of_isIdentifierBehind {spelling : String}
    (identifier : phrase.isIdentifierBehind spelling = true)
    (reads : phrase.Reads name tokens value size) :
    size = 2 ∧ ∃ word named rest, tokens = word :: named :: rest ∧
      word.isWord spelling = true ∧ named.kind = .identifier := by
  induction phrase generalizing tokens size with
  | map build body ih =>
      obtain ⟨_, _, inner⟩ := reads.of_map
      exact ih identifier inner
  | sequence first second =>
      obtain ⟨asks, named⟩ := Bool.and_eq_true _ _ |>.mp identifier
      obtain ⟨_, run⟩ := reads
      obtain ⟨_, _, _, _, _, _, left, right, _, _, rfl⟩ := run.of_sequence
      obtain ⟨rfl, word, rest, rfl, is⟩ := token_of_asksFor asks ⟨_, left⟩
      obtain ⟨rfl, second, others, rfl, kind⟩ := token_of_isIdentifier named ⟨_, right⟩
      exact ⟨rfl, word, second, others, rfl, is, kind⟩
  | _ => cases identifier

end Phrase

/-- The name of a function, with the word in front of it or without. -/
def functionNames : Marks where
  covers name phrase :=
    match phrase with
    | .choice first second =>
        name == .function && (first.isIdentifierBehind "function" && second.isIdentifier)
    | _ => false

/-- The name of a function is two tokens or one: the word and an identifier, or an identifier. -/
theorem tokens_of_functionNames {name : RuleName} {phrase : Phrase α} {tokens : List Token}
    {value : α} {size : Nat} (marked : functionNames.covers name phrase = true)
    (reads : phrase.Reads name tokens value size) :
    (size = 2 ∧ ∃ word named rest, tokens = word :: named :: rest ∧
      word.isWord "function" = true ∧ named.kind = .identifier) ∨
    size = 1 ∧ ∃ named rest, tokens = named :: rest ∧ named.kind = .identifier := by
  cases phrase with
  | choice first second =>
      obtain ⟨_, both⟩ := Bool.and_eq_true _ _ |>.mp marked
      obtain ⟨behindWord, identifier⟩ := Bool.and_eq_true _ _ |>.mp both
      exact reads.of_choice.imp (Phrase.tokens_of_isIdentifierBehind behindWord)
        (Phrase.token_of_isIdentifier identifier)
  | _ => cases marked

/-- Whether a symbol has no function in it. -/
def Nonterminal.withoutFunction : Nonterminal α → Bool
  | .declaration | .collection | .item | .function => false
  | _ => true

theorem functionNames_silent (symbol : Nonterminal α) (aside : symbol.withoutFunction = true) :
    (definition symbol).silent functionNames Nonterminal.withoutFunction symbol.name = true := by
  cases symbol <;> first | exact absurd aside Bool.false_ne_true | rfl

/-- A name of a function with a word in front of it, and without. -/
def wordVariation {word named : Token} (is : word.isWord "function" = true)
    (kind : named.kind = .identifier) (rest : List Token) : Variation Bool where
  marks := functionNames
  fits _ _ values := ∀ one other, values one = values other
  lists
    | true => word :: named :: rest
    | false => named :: rest
  sizes
    | true => 2
    | false => 1
  same one other := by cases one <;> cases other <;> rfl
  named one := by
    cases one
    · exact ⟨named, rest, rfl, kind⟩
    · exact ⟨word, named :: rest, rfl, kind_of_isWord is⟩

section Word

variable {word named : Token} {is : word.isWord "function" = true}
  {kind : named.kind = .identifier} {rest : List Token} {here : Bool}

/-- The name is the same with the word and without. -/
theorem functionName_refills :
    functionName.Refills (wordVariation is kind rest) here .function fun rest =>
      ∃ value taken, functionTail.Reads .function rest value taken := by
  rintro _ value reads ⟨_, _, tail⟩
  have behindName : ((wordVariation is kind rest).lists here).drop
      ((wordVariation is kind rest).sizes here) = rest := by
    cases here <;> rfl
  rw [behindName] at tail
  obtain ⟨opening, head, mark⟩ := exists_head_of_functionTail tail
  obtain ⟨others, rfl⟩ := List.head?_eq_some_iff.mp head
  have called : ∀ one, functionName.Reads .function
      ((wordVariation is kind (opening :: others)).lists one) named.lexeme
      ((wordVariation is kind (opening :: others)).sizes one)
    | true => functionName_word is kind
    | false => functionName_plain kind mark
  obtain ⟨_, run⟩ := reads
  obtain ⟨_, again⟩ := called here
  obtain ⟨_, matched⟩ := run.unique again
  cases matched
  exact ⟨fun _ => named.lexeme, rfl, fun _ _ => rfl, called⟩

theorem wordVariation_kept (symbol : Nonterminal α) :
    (definition symbol).Kept (wordVariation is kind rest) here symbol.name fun _ => True := by
  have silent : ∀ {β : Type} {name : RuleName} {phrase : Phrase β} {follow : List Token → Prop},
      phrase.silent functionNames Nonterminal.withoutFunction name = true →
      phrase.Kept (wordVariation is kind rest) here name follow :=
    fun silent => .of_silent functionNames_silent silent
  rcases aside : symbol.withoutFunction with _ | _
  · cases symbol with
    | declaration => exact ⟨.of_unmarked rfl, trivial, trivial, .collection⟩
    | collection =>
        refine ⟨silent rfl, .behind rfl ⟨.of_unmarked rfl,
          .behind rfl (.before ⟨trivial, .items⟩ rfl), .token⟩, .decorators fun token other => ?_⟩
        simp [behind, Phrase.forecast, Terminal.read, Token.isWord, other]
    | item =>
        exact ⟨.of_unmarked rfl, .before trivial rfl,
          ⟨.of_unmarked rfl, trivial, .before trivial rfl, .function⟩, .field⟩
    | function =>
        refine ⟨silent rfl, ⟨⟨functionName_refills, silent rfl, silent rfl,
          .of_silent functionNames_silent rfl⟩, silent rfl, .of_silent functionNames_silent rfl⟩,
          .decorators fun token other => ?_⟩
        simp [behind, Phrase.forecast, Terminal.read, Token.isWord, other]
    | _ => cases aside
  · exact silent (functionNames_silent symbol aside)

end Word

/-! ## Values that differ in places only -/

section Places

variable {H : Type} {variation : Variation H} {move : Position → Position}

/-- The values of a symbol are the same when their places are moved. -/
def Nonterminal.SameMoved (move : Position → Position) (symbol : Nonterminal α) (values : H → α) :
    Prop :=
  ∀ one other, symbol.relocate move (values one) = symbol.relocate move (values other)

/-- Where the values of a part are all the same, those of a phrase are the same when all places are
made one. -/
theorem Phrase.Varies.relocate {name : RuleName} {phrase : Phrase α} {values : H → α}
    {action : α → α}
    (varies : phrase.Varies variation (Nonterminal.SameMoved move) name values)
    (carries : phrase.Carries move action) (onePlace : ∀ place other, move place = move other)
    (fits : ∀ {β : Type} {phrase : Phrase β} {values : H → β},
      variation.fits name phrase values → ∀ one other, values one = values other) :
    ∀ one other, action (values one) = action (values other) := by
  induction phrase with
  | token terminal => exact fun one other => congrArg action (fits varies one other)
  | reference symbol =>
      obtain rfl := carries
      exact varies
  | sequence first second ihFirst ihSecond =>
      obtain ⟨left, right, before, after, rfl⟩ := carries
      rcases varies with ⟨inner, value, rfl, varies⟩ | ⟨value, inner, rfl, varies⟩
      · exact fun one other =>
          congrArg (fun moved => (moved, right value)) (ihFirst varies before one other)
      · exact fun one other =>
          congrArg (fun moved => (left value, moved)) (ihSecond varies after one other)
  | choice first second ihFirst ihSecond =>
      rcases varies with same | varies | varies
      · exact fun one other => congrArg action (fits same one other)
      · exact ihFirst varies carries.1
      · exact ihSecond varies carries.2
  | optional body ih =>
      obtain ⟨_, carries, rfl⟩ := carries
      obtain ⟨inner, rfl, varies⟩ := varies
      exact fun one other => congrArg some (ih varies carries one other)
  | many body ih =>
      obtain ⟨action, carries, rfl⟩ := carries
      obtain ⟨front, inner, back, rfl, varies⟩ := varies
      intro one other
      simp only [List.map_append, List.map_cons, ih varies carries one other]
  | flagged character body ih =>
      obtain ⟨_, carries, rfl⟩ := carries
      obtain ⟨set, inner, rfl, varies⟩ := varies
      exact fun one other => congrArg (Prod.mk set) (ih varies carries one other)
  | operation operand ih =>
      obtain ⟨_, carries, rfl⟩ := carries
      obtain ⟨operator, inner, rfl, varies⟩ := varies
      exact fun one other => congrArg (Prod.mk operator) (ih varies carries one other)
  | map build body ih =>
      obtain ⟨_, carries, built⟩ := carries
      obtain ⟨inner, rfl, varies⟩ := varies
      intro one other
      rw [built, built, ih varies carries one other]
  | located build body ih =>
      obtain ⟨_, carries, built⟩ := carries
      obtain ⟨front, inner, rfl, varies⟩ := varies
      intro one other
      rw [built, built, ih varies carries one other, onePlace _ (variation.start front other)]

end Places

end Peg

/-! ## Programs with and without the word -/

open Peg

/-- The name of a function of a program stands behind so many tokens, and it is of so many tokens:
two with the word in front of it, and one without. -/
def FunctionNameAt (tokens : List Token) (place size : Nat) : Prop :=
  ∃ found more, Occurs functionNames .program declarations (closed tokens) found place size more

section Programs

variable {tokens : List Token} {program : Program} {place : Nat}

/-- A program is the same with a word in front of the name of a function and without, but for
places. -/
theorem parse_word {front others : List Token} {word named : Token} {found : List Declaration}
    {more : Nat} (is : word.isWord "function" = true) (kind : named.kind = .identifier)
    (here one : Bool)
    (parsed : parse (front ++ (wordVariation is kind others).lists here) = .ok program)
    (part : Occurs functionNames .program declarations
      (closed (front ++ (wordVariation is kind others).lists here)) found front.length
      ((wordVariation is kind others).sizes here) more) :
    ∃ other, parse (front ++ (wordVariation is kind others).lists one) = .ok other ∧
      other.withoutPlaces = program.withoutPlaces := by
  obtain ⟨tail, ends⟩ := closed_eq_append (named :: others)
  have closes : ∀ one, closed (front ++ (wordVariation is kind others).lists one) =
      front ++ (wordVariation is kind (others ++ tail)).lists one := by
    have withWord : closed ([word] ++ named :: others) = [word] ++ closed (named :: others) :=
      closed_append_of_ne_nil _ (List.cons_ne_nil _ _)
    rintro (_ | _)
    · exact (closed_append_of_ne_nil front (List.cons_ne_nil _ _)).trans
        (congrArg (front ++ ·) ends)
    · rw [ends] at withWord
      exact (closed_append_of_ne_nil front (List.cons_ne_nil _ _)).trans
        (congrArg (front ++ ·) withWord)
  have step : ∀ {β : Type} (symbol : Nonterminal β) (values : Bool → β),
      (definition symbol).Varies (wordVariation is kind (others ++ tail))
        (Nonterminal.SameMoved fun _ => Position.start) symbol.name values →
      symbol.SameMoved (fun _ => Position.start) values :=
    fun symbol _ varies => varies.relocate (definition_carries _ symbol) (fun _ _ => rfl) id
  obtain ⟨values, rfl, varies, parses⟩ :=
    ParseSession.parse_vary wordVariation_kept step parsed part (closes here) closes
  refine ⟨_, parses one, congrArg Program.mk ?_⟩
  exact varies.relocate (Phrase.Carries.many rfl) (fun _ _ => rfl) id one here

/-- The word in front of the name of a function can be left out or put there: the tokens make the
same program, but for places. -/
theorem parse_function_word (parsed : parse tokens = .ok program) :
    (FunctionNameAt tokens place 2 → (∃ word ∈ tokens[place]?, word.isWord "function" = true) ∧
      ∃ other, parse (tokens.eraseIdx place) = .ok other ∧
        other.withoutPlaces = program.withoutPlaces) ∧
    (FunctionNameAt tokens place 1 → ∀ position,
      ∃ other, parse (tokens.insertIdx place ⟨.identifier, "function", position⟩) = .ok other ∧
        other.withoutPlaces = program.withoutPlaces) := by
  have notEnd : ∀ {token : Token}, token.kind = .identifier → token.isEnd = false := by
    intro token kind
    rw [Token.isEnd, kind]
    rfl
  constructor
  · rintro ⟨found, more, part⟩
    obtain ⟨_, _, _, _, marked, reads⟩ := part.marked
    rcases tokens_of_functionNames marked reads with
      ⟨_, word, named, rest, same, is, kind⟩ | ⟨none, _⟩
    · obtain ⟨front, others, rfl, rfl⟩ := split_of_closed [word, named] (by simp) same
        (by simp [notEnd kind, notEnd (kind_of_isWord is)])
      refine ⟨⟨word, by simp, is⟩, ?_⟩
      have erased : (front ++ ([word, named] ++ others)).eraseIdx front.length =
          front ++ named :: others := by
        rw [List.eraseIdx_append_of_length_le (Nat.le_refl _), Nat.sub_self]
        rfl
      rw [erased]
      exact parse_word is kind true false parsed part
    · cases none
  · rintro ⟨found, more, part⟩ position
    obtain ⟨_, _, _, _, marked, reads⟩ := part.marked
    rcases tokens_of_functionNames marked reads with ⟨none, _⟩ | ⟨_, named, rest, same, kind⟩
    · cases none
    · obtain ⟨front, others, rfl, rfl⟩ := split_of_closed [named] (by simp) same
        (by simp [notEnd kind])
      let word : Token := ⟨.identifier, "function", position⟩
      have inserted : (front ++ ([named] ++ others)).insertIdx front.length word =
          front ++ word :: named :: others :=
        List.modifyTailIdx_add (List.cons word) 0 front ([named] ++ others)
      rw [inserted]
      have is : word.isWord "function" = true := rfl
      exact parse_word is kind false true parsed part

end Programs

/-- Tokens that write a function without parameters and statements, whose name is a keyword. -/
def functionTokens : List Token := [⟨.identifier, "collection", ⟨1, 10⟩⟩, ⟨.symbol, "(", ⟨1, 20⟩⟩,
  ⟨.symbol, ")", ⟨1, 21⟩⟩, ⟨.symbol, "\x7b", ⟨1, 23⟩⟩, ⟨.symbol, "\x7d", ⟨1, 24⟩⟩]

open Phrase in
/-- A function with the name of a keyword is the same with the word in front of it and without. -/
theorem parse_function_word_of_keyword :
    let word : Token := ⟨.identifier, "function", ⟨1, 1⟩⟩
    (∃ other, parse functionTokens = .ok other ∧ other.withoutPlaces =
      (⟨[.function ⟨⟨1, 1⟩, [], "collection", [], none, []⟩]⟩ : Program).withoutPlaces) ∧
    ∃ other, parse (word :: functionTokens) = .ok other ∧ other.withoutPlaces =
      (⟨[.function ⟨⟨1, 10⟩, [], "collection", [], none, []⟩]⟩ : Program).withoutPlaces := by
  intro word
  have stands : ∀ {tokens : List Token} {size more : Nat} {name : String}
      {tail : List Field × Option SchemaType × List Statement},
      (definition .collection).Fails .collection (closed tokens) →
      (Phrase.many (.reference .decorator)).Reads .function (closed tokens) [] 0 →
      functionName.Reads .function (closed tokens) name size →
      functionTail.Reads .function ((closed tokens).drop (0 + (size + 0))) tail more →
      declarations.Reads .program ((closed tokens).drop (0 + 0 + (size + (0 + more)))) [] 0 →
      FunctionNameAt tokens 0 size :=
    fun collection decorators name tail others => ⟨_, _, .manyFirst rfl (.reference (.choiceSecond
      (.map (.ofReference collection)) (.map (.reference (.located rfl (.second decorators
        (.first (.choice rfl name) tail))))))) others⟩
  have behindWord : FunctionNameAt (word :: functionTokens) 0 2 :=
    stands (.of_rule rfl rfl) (.of_rule rfl rfl) (.of_rule rfl rfl) (.of_rule rfl rfl)
      (.of_rule rfl rfl)
  have alone : FunctionNameAt functionTokens 0 1 :=
    stands (.of_rule rfl rfl) (.of_rule rfl rfl) (.of_rule rfl rfl) (.of_rule rfl rfl)
      (.of_rule rfl rfl)
  exact ⟨((parse_function_word rfl).1 behindWord).2, (parse_function_word rfl).2 alone ⟨1, 1⟩⟩

end CollectionSchema
