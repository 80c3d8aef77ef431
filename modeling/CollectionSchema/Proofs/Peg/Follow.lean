import CollectionSchema.Proofs.Peg.Reply

/-!
# What starts a phrase and what may follow it

Some facts about a phrase can be read off the phrase and a single token: that the
phrase takes nothing in front of the token (`Phrase.forecast`), and that a match
of the phrase cannot be made longer by the token when the token follows it
(`Phrase.Closes`).  Three tables state such facts for the symbols, and each is
checked once, against the definitions of the symbols.

Every phrase has a shortest match of a simple kind: always the first alternative,
no option and no repetition.  It is a match wherever a token follows that cannot
make it longer (`Phrase.exists_shortest`).
-/

set_option autoImplicit false

namespace CollectionSchema.Peg

variable {α β : Type}

/-! ## Tokens to start with -/

theorem isSymbol_iff {token : Token} {character : Char} :
    token.isSymbol character = true ↔
      token.kind = .symbol ∧ token.lexeme = String.singleton character := by
  simp [Token.isSymbol]

theorem isSymbol_of_ne {token : Token} {character other : Char}
    (mark : token.isSymbol character = true) (ne : character ≠ other) :
    token.isSymbol other = false := by
  refine Bool.eq_false_iff.mpr fun also => ne ?_
  have same := (isSymbol_iff.mp mark).2.symm.trans (isSymbol_iff.mp also).2
  simpa using congrArg String.toList same

/-- A token that is what was asked for. -/
def Terminal.sample : {α : Type} → Terminal α → Token
  | _, .mark character => ⟨.symbol, String.singleton character, Position.start⟩
  | _, .word spelling | _, .either spelling _ => ⟨.identifier, spelling, Position.start⟩
  | _, .identifier => ⟨.identifier, "x", Position.start⟩
  | _, .string => ⟨.string, "''", Position.start⟩
  | _, .number => ⟨.number, "0", Position.start⟩
  | _, .decoratorName => ⟨.identifier, "public", Position.start⟩
  | _, .sortOrder => ⟨.identifier, "asc", Position.start⟩
  | _, .basicType => ⟨.identifier, "string", Position.start⟩

theorem Terminal.read_sample (terminal : Terminal α) :
    ∃ value, terminal.read terminal.sample = some value := by
  cases terminal with
  | mark character => exact ⟨(), by simp [read, sample, Token.isSymbol]⟩
  | word spelling => exact ⟨(), by simp [read, sample, Token.isWord]⟩
  | either first second => exact ⟨true, by simp [read, sample, Token.isWord]⟩
  | identifier => exact ⟨_, rfl⟩
  | string => exact ⟨_, rfl⟩
  | number =>
      refine ⟨0, ?_⟩
      simp [read, sample, Text.integer64?, Text.integer?, Text.natural?, Text.digitsValue,
        Text.digitValue, Text.fitsInteger64]
  | decoratorName => exact ⟨_, rfl⟩
  | sortOrder => exact ⟨_, rfl⟩
  | basicType => exact ⟨_, rfl⟩

/-- Of all tokens that are what was asked for, the same are marks. -/
theorem Terminal.isSymbol_of_read {terminal : Terminal α} {token : Token} {value : α}
    (read : terminal.read token = some value) (character : Char) :
    token.isSymbol character = terminal.sample.isSymbol character := by
  cases terminal <;> simp only [Terminal.read] at read <;>
    grind [Token.isSymbol, Token.isWord, Terminal.sample]

/-- The mark of an operator that is written with one token. -/
def percent : Token := (Terminal.mark '%').sample

/-- A mark that makes an operator together with the mark in front of it. -/
def Continues (second : Token) : Prop := ∃ first, (Recognizer.pair? first second).isSome = true

theorem spelling_of_ofSpelling {text : String} {operator : Operator}
    (found : Operator.ofSpelling? text = some operator) : operator.spelling = text := by
  have spelled := List.find?_some found
  exact beq_iff_eq.mp spelled

theorem Continues.symbol {second : Token} (continues : Continues second) :
    second.kind = .symbol ∧ second.lexeme ≠ "(" := by
  obtain ⟨first, joined⟩ := continues
  obtain ⟨operator, joined⟩ := Option.isSome_iff_exists.mp joined
  rw [Recognizer.pair?] at joined
  split at joined
  case isFalse => cases joined
  case isTrue symbol =>
    refine ⟨symbol, fun parenthesis => ?_⟩
    have spelled := spelling_of_ofSpelling joined
    rw [parenthesis] at spelled
    have last := congrArg (fun text => text.toList.getLast?) spelled
    rw [String.toList_append, List.getLast?_append_of_ne_nil _ (by decide)] at last
    cases operator <;> simp [Operator.spelling] at last

/-- The first token of the shortest match of a symbol. -/
def Nonterminal.head : Nonterminal α → Token
  | .declaration | .collection => (Terminal.word "collection").sample
  | .item | .field | .call => Terminal.identifier.sample
  | .index | .decorator => (Terminal.mark '@').sample
  | .indexField | .arraySuffix => (Terminal.mark '[').sample
  | .function => (Terminal.word "function").sample
  | .type => Terminal.basicType.sample
  | .mapType => (Terminal.word "map").sample
  | .objectType | .branch => (Terminal.mark '\x7b').sample
  | .statement | .compound | .conditional => (Terminal.word "if").sample
  | .simple | .small => (Terminal.word "break").sample
  | .letBinding => (Terminal.word "let").sample
  | .whileLoop => (Terminal.word "while").sample
  | .forLoop => (Terminal.word "for").sample
  | .expression | .value => Terminal.number.sample

/-- A number that goes down along the references in the shortest match. -/
def Nonterminal.height : Nonterminal α → Nat
  | .arraySuffix | .decorator | .index | .indexField | .type | .function | .collection
  | .objectType | .value | .call | .small | .branch => 0
  | .field | .declaration | .mapType | .expression | .simple => 1
  | .item | .letBinding | .conditional | .whileLoop => 2
  | .forLoop | .compound => 3
  | .statement => 4

namespace Phrase

/-- The first token of the shortest match, if it is not empty. -/
def head : {α : Type} → Phrase α → Option Token
  | _, .token terminal => some terminal.sample
  | _, .reference symbol => some symbol.head
  | _, .sequence first second => first.head.or second.head
  | _, .choice first _ => first.head
  | _, .optional _ | _, .many _ => none
  | _, .flagged character _ => some (Terminal.mark character).sample
  | _, .operation _ => some percent
  | _, .map _ body | _, .located _ body => body.head

/-- Whether all symbols that the shortest match refers to are lower than a number. -/
def lies (height : Nat) : {α : Type} → Phrase α → Bool
  | _, .token _ | _, .optional _ | _, .many _ => true
  | _, .reference symbol => decide (symbol.height < height)
  | _, .sequence first second => first.lies height && second.lies height
  | _, .choice first _ => first.lies height
  | _, .flagged _ body | _, .operation body | _, .map _ body | _, .located _ body =>
      body.lies height

end Phrase

theorem definition_head (symbol : Nonterminal α) :
    (definition symbol).head = some symbol.head := by
  cases symbol <;> rfl

theorem definition_lies (symbol : Nonterminal α) :
    (definition symbol).lies symbol.height = true := by
  cases symbol <;> rfl

/-! ## What a phrase takes in front of a token -/

/-- Whether a token is a mark that an operator starts with. -/
def isOperator (token : Token) : Bool :=
  token.kind == .symbol && (Operator.ofSpelling? token.lexeme).isSome

/-- Whether the next token can be the first one of a match of a symbol. -/
def Nonterminal.starts (symbol : Nonterminal α) (next : Option Token) : Bool :=
  next.any fun token =>
    match symbol with
    | .decorator | .index => token.isSymbol '@'
    | .collection | .function | .declaration | .field | .item =>
        token.isSymbol '@' || token.kind == .identifier
    | .indexField => token.isSymbol '[' || token.kind == .identifier
    | .arraySuffix => token.isSymbol '['
    | .objectType => token.isSymbol '\x7b'
    | .type => token.isSymbol '\x7b' || token.kind == .identifier
    | .mapType | .letBinding | .conditional | .whileLoop | .forLoop | .call | .compound =>
        token.kind == .identifier
    | .value | .expression | .small | .simple | .statement =>
        token.isSymbol '(' || (token.kind != .symbol && token.kind != .endOfInput)
    | .branch =>
        token.isSymbol '(' || token.isSymbol '\x7b' ||
          (token.kind != .symbol && token.kind != .endOfInput)

/-- What can be told about a match from the next token alone. -/
inductive Forecast where
  /-- There is no match. -/
  | missed
  /-- There is a match that takes no token. -/
  | empty
  | unclear

/-- Whether a forecast has come true. -/
def Forecast.Holds (forecast : Forecast) (found : Option (α × Nat)) : Prop :=
  match forecast with
  | .missed => found = none
  | .empty => ∃ value, found = some (value, 0)
  | .unclear => True

/-- What can be told about the match of a phrase from the next token. -/
def Phrase.forecast (next : Option Token) : {α : Type} → Phrase α → Forecast
  | _, .token terminal => if (next.bind terminal.read).isNone then .missed else .unclear
  | _, .reference symbol => if symbol.starts next then .unclear else .missed
  | _, .sequence first second =>
      match first.forecast next with
      | .missed => .missed
      | .empty => second.forecast next
      | .unclear => .unclear
  | _, .choice first second =>
      match first.forecast next with
      | .missed => second.forecast next
      | decided => decided
  | _, .optional body | _, .many body =>
      match body.forecast next with
      | .missed => .empty
      | _ => .unclear
  | _, .flagged character body =>
      if next.any fun token => token.isSymbol character then .unclear
      else
        match body.forecast next with
        | .missed => .missed
        | _ => .unclear
  | _, .operation _ => if next.any isOperator then .unclear else .missed
  | _, .map _ body | _, .located _ body => body.forecast next

theorem Forecast.Holds.further {forecast : Forecast} {found : Option (α × Nat)}
    (holds : forecast.Holds found) (build : α → β) : forecast.Holds (further build 0 found) := by
  cases forecast with
  | missed =>
      obtain rfl : found = none := holds
      exact rfl
  | empty =>
      obtain ⟨value, rfl⟩ := holds
      exact ⟨build value, rfl⟩
  | unclear => trivial

/-- A symbol takes nothing in front of a token that cannot start it. -/
theorem definition_forecast (symbol : Nonterminal α) {next : Option Token}
    (other : symbol.starts next = false) : (definition symbol).forecast next = .missed := by
  rcases next with _ | token
  · cases symbol <;> rfl
  · rw [Nonterminal.starts, Option.any_some] at other
    cases symbol <;>
      simp only [definition, Phrase.forecast, Phrase.behind, Phrase.before, Phrase.between,
        Phrase.braced, Phrase.separated, Terminal.read, Nonterminal.starts, Option.any_some,
        Option.bind_some] <;>
      grind [Token.isSymbol, Token.isWord]

namespace Forecast

variable {forecast : Forecast} {found : Option (α × Nat)}

theorem Holds.not_missed {result : α × Nat} (holds : forecast.Holds (some result)) :
    forecast ≠ .missed := by
  rintro rfl
  cases holds

theorem Holds.not_empty (holds : forecast.Holds (α := α) none) : forecast ≠ .empty := by
  rintro rfl
  obtain ⟨value, matched⟩ := holds
  cases matched

end Forecast

/-- Forecasts come true. -/
theorem Run.forecast {name : RuleName} {phrase : Phrase α} {tokens : List Token}
    {misses : List Miss} {found : Option (α × Nat)} (run : Run name phrase tokens misses found) :
    (phrase.forecast tokens.head?).Holds found := by
  induction run with
  | token read => simp [Phrase.forecast, read, Forecast.Holds]
  | tokenMissed unread => simp [Phrase.forecast, unread, Forecast.Holds]
  | @reference _ _ symbol tokens _ _ _ ih =>
      rw [Phrase.forecast]
      split
      case isTrue => trivial
      case isFalse other =>
        rwa [definition_forecast symbol (Bool.eq_false_iff.mpr other)] at ih
  | @sequenceMissed _ _ _ first _ tokens _ _ ih =>
      rw [Phrase.forecast]
      rcases ahead : first.forecast tokens.head? with _ | _ | _
      · exact rfl
      · exact absurd ahead ih.not_empty
      · trivial
  | @sequence _ _ _ first second tokens _ _ _ _ _ left right ihLeft ihRight =>
      rw [Phrase.forecast]
      rcases ahead : first.forecast tokens.head? with _ | _ | _
      · exact absurd ahead ihLeft.not_missed
      · rw [ahead] at ihLeft
        obtain ⟨value, ⟨⟩⟩ := ihLeft
        exact ihRight.further _
      · trivial
  | @choiceFirst _ _ first _ tokens _ _ _ ih =>
      rw [Phrase.forecast]
      rcases ahead : first.forecast tokens.head? with _ | _ | _
      · exact absurd ahead ih.not_missed
      · rwa [ahead] at ih
      · trivial
  | @choiceSecond _ _ first _ tokens _ _ _ _ _ ihLeft ihRight =>
      rw [Phrase.forecast]
      rcases ahead : first.forecast tokens.head? with _ | _ | _
      · exact ihRight
      · exact absurd ahead ihLeft.not_empty
      · trivial
  | @optional _ _ body tokens _ _ _ _ ih =>
      rw [Phrase.forecast]
      rcases ahead : body.forecast tokens.head? with _ | _ | _
      · exact absurd ahead ih.not_missed
      · trivial
      · trivial
  | @many _ _ body tokens _ _ _ _ _ _ _ _ _ ih _ =>
      rw [Phrase.forecast]
      rcases ahead : body.forecast tokens.head? with _ | _ | _
      · exact absurd ahead ih.not_missed
      · trivial
      · trivial
  | @optionalMissed _ _ body tokens _ _ _ | @manyEnd _ _ body tokens _ _ _ =>
      rw [Phrase.forecast]
      rcases body.forecast tokens.head? with _ | _ | _
      · exact ⟨_, rfl⟩
      · trivial
      · trivial
  | flagged set _ _ =>
      rw [Phrase.forecast, List.head?_cons, Option.any_some, if_pos set]
      trivial
  | @flaggedUnset _ _ _ body tokens _ _ _ _ _ ih =>
      rw [Phrase.forecast]
      split
      · trivial
      · rcases ahead : body.forecast tokens.head? with _ | _ | _
        · rw [ahead] at ih
          exact ih.further _
        · trivial
        · trivial
  | operationMissed _ =>
      rw [Phrase.forecast]
      split
      · trivial
      · exact rfl
  | operation _ read _ _ =>
      rcases look_operator_cases read with
        ⟨first, rest, rfl, rfl, symbol, single, _⟩ |
        ⟨first, second, rest, rfl, rfl, symbol, _, single, _⟩ <;>
        simp [Phrase.forecast, isOperator, symbol, single, Forecast.Holds]
  | map _ ih | located _ _ ih => exact ih.further _

/-! ## What may follow a phrase -/

/-- Whether a token cannot make a match of a symbol longer. -/
def Nonterminal.follows (symbol : Nonterminal α) (next : Option Token) : Bool :=
  next.all fun token =>
    match symbol with
    | .decorator => !token.isSymbol '('
    | .field | .type => !token.isSymbol '['
    | .expression | .small | .letBinding => !isOperator token
    | .conditional | .compound | .statement =>
        !Nonterminal.branch.starts (some token) && !token.isWord "else"
    | _ => true

/-- A token that cannot make any match of a phrase longer, whichever way the phrase was matched. -/
def Phrase.Closes (next : Option Token) : {α : Type} → Phrase α → Prop
  | _, .token _ => True
  | _, .reference symbol => symbol.follows next = true
  | _, .sequence first second => first.Closes (second.head.or next) ∧ second.Closes next
  | _, .choice first second => first.Closes next ∧ second.Closes next
  | _, .optional body | _, .many body => body.Closes next ∧ body.forecast next = .missed
  | _, .flagged _ body | _, .operation body | _, .map _ body | _, .located _ body =>
      body.Closes next

theorem definition_closes (symbol : Nonterminal α) {next : Option Token}
    (last : symbol.follows next = true) : (definition symbol).Closes next := by
  cases symbol <;>
    simp only [definition, Phrase.Closes, Phrase.forecast, Phrase.behind, Phrase.before,
      Phrase.between, Phrase.braced, Phrase.separated, Phrase.head, Option.some_or, Option.none_or]
  all_goals
    rcases next with _ | token <;>
      simp_all [Nonterminal.follows, Nonterminal.starts, Token.isSymbol, Token.isWord,
        Terminal.sample, Terminal.read, isOperator, Operator.ofSpelling?, Operator.all,
        Operator.spelling] <;>
      grind

/-! ## Marks that belong to what stands in front of them -/

/-- Behind an optional mark, and behind an operator, no match starts with a mark that could belong
to what stands in front of it. -/
def Phrase.Distinct : {α : Type} → Phrase α → Prop
  | _, .token _ | _, .reference _ => True
  | _, .sequence first second | _, .choice first second => first.Distinct ∧ second.Distinct
  | _, .optional body | _, .many body | _, .map _ body | _, .located _ body => body.Distinct
  | _, .flagged character body =>
      body.Distinct ∧ ∀ token : Token, token.isSymbol character = true →
        body.forecast (some token) = .missed
  | _, .operation operand =>
      operand.Distinct ∧ ∀ token, Continues token → operand.forecast (some token) = .missed

theorem definition_distinct (symbol : Nonterminal α) : (definition symbol).Distinct := by
  cases symbol <;>
    simp only [definition, Phrase.Distinct, Phrase.forecast, Phrase.behind, Phrase.before,
      Phrase.between, Phrase.braced, Phrase.separated, and_self, true_and]
  case field =>
    intro token mark
    have other : token.isSymbol ':' = false := by
      simp_all [Token.isSymbol]
    simp [Terminal.read, other]
  case expression =>
    intro token continues
    obtain ⟨symbol, other⟩ := continues.symbol
    simp [Nonterminal.starts, Token.isSymbol, symbol, other]

/-! ## Shortest matches -/

/-- Some tokens that a phrase takes, whatever token follows that cannot make a match longer. -/
structure Phrase.Writes (name : RuleName) (phrase : Phrase α) (words : List Token) : Prop where
  head : words.head? = phrase.head
  run : ∀ rest : List Token, phrase.Closes rest.head? →
    ∃ misses value, Run name phrase (words ++ rest) misses (some (value, words.length))

theorem percent_look {rest : List Token} (alone : ∀ next ∈ rest.head?, ¬ Continues next) :
    Recognizer.operator.look (percent :: rest) = some (.modulo, 1) := by
  have pair : rest.head?.bind (Recognizer.pair? percent) = none := by
    rcases head : rest.head? with _ | next
    · rfl
    · exact Option.not_isSome_iff_eq_none.mp fun joined =>
        alone next (by rw [head]; rfl) ⟨percent, joined⟩
  have single : Operator.ofSpelling? percent.lexeme = some .modulo := by decide
  simp [Recognizer.operator, single, pair, show percent.kind = .symbol from rfl]

theorem Phrase.run_of_missed (name : RuleName) {phrase : Phrase α}
    (wellFormed : phrase.wellFormed = true) {tokens : List Token}
    (missed : phrase.forecast tokens.head? = .missed) :
    ∃ misses, Run name phrase tokens misses none := by
  have run := phrase.run name wellFormed tokens
  have holds := run.forecast
  rw [missed] at holds
  exact ⟨_, holds ▸ run⟩

/-- A phrase has a shortest match, if the symbols that the match refers to have one. -/
theorem Phrase.exists_shortest {height : Nat}
    (references : ∀ {α : Type} (symbol : Nonterminal α), symbol.height < height →
      ∃ words, (definition symbol).Writes symbol.name words)
    {name : RuleName} {phrase : Phrase α} (wellFormed : phrase.wellFormed = true)
    (distinct : phrase.Distinct) (lies : phrase.lies height = true) :
    ∃ words, phrase.Writes name words := by
  induction phrase with
  | token terminal =>
      obtain ⟨value, read⟩ := terminal.read_sample
      exact ⟨[terminal.sample], rfl, fun rest _ => ⟨_, _, .token read⟩⟩
  | reference symbol =>
      obtain ⟨words, head, run⟩ := references symbol (of_decide_eq_true lies)
      refine ⟨words, head.trans (definition_head symbol), fun rest last => ?_⟩
      obtain ⟨misses, value, inner⟩ := run rest (definition_closes symbol last)
      exact ⟨_, _, .reference inner⟩
  | sequence first second ihFirst ihSecond =>
      simp only [Phrase.wellFormed, Phrase.lies, Bool.and_eq_true] at wellFormed lies
      obtain ⟨words, firstHead, first⟩ := ihFirst wellFormed.1 distinct.1 lies.1
      obtain ⟨more, secondHead, second⟩ := ihSecond wellFormed.2 distinct.2 lies.2
      refine ⟨words ++ more, ?_, fun rest last => ?_⟩
      · rw [List.head?_append, firstHead, secondHead]
        rfl
      · obtain ⟨later, result, right⟩ := second rest last.2
        obtain ⟨misses, value, left⟩ := first (more ++ rest)
          (by rw [List.head?_append, secondHead]; exact last.1)
        have behind : (words ++ (more ++ rest)).drop words.length = more ++ rest := List.drop_left
        rw [← behind] at right
        rw [List.append_assoc, List.length_append]
        exact ⟨_, _, .sequence left right⟩
  | choice first second ihFirst _ =>
      simp only [Phrase.wellFormed, Phrase.lies, Bool.and_eq_true] at wellFormed lies
      obtain ⟨words, head, run⟩ := ihFirst wellFormed.1 distinct.1 lies
      refine ⟨words, head, fun rest last => ?_⟩
      obtain ⟨misses, value, left⟩ := run rest last.1
      exact ⟨_, _, .choiceFirst left⟩
  | optional body _ =>
      refine ⟨[], rfl, fun rest last => ?_⟩
      obtain ⟨misses, inner⟩ := body.run_of_missed name wellFormed last.2
      exact ⟨_, _, .optionalMissed inner⟩
  | many body _ =>
      simp only [Phrase.wellFormed, Bool.and_eq_true] at wellFormed
      refine ⟨[], rfl, fun rest last => ?_⟩
      obtain ⟨misses, inner⟩ := body.run_of_missed name wellFormed.2 last.2
      exact ⟨_, _, .manyEnd inner⟩
  | flagged character body ih =>
      simp only [Phrase.wellFormed, Bool.and_eq_true] at wellFormed
      obtain ⟨words, _, run⟩ := ih wellFormed.2 distinct.1 lies
      have set : (Terminal.mark character).sample.isSymbol character = true := by
        simp [Terminal.sample, Token.isSymbol]
      refine ⟨(Terminal.mark character).sample :: words, rfl, fun rest last => ?_⟩
      obtain ⟨misses, value, inner⟩ := run rest last
      rw [List.length_cons, Nat.add_comm]
      exact ⟨_, (true, value), .flagged set inner⟩
  | operation operand ih =>
      simp only [Phrase.wellFormed, Bool.and_eq_true] at wellFormed
      obtain ⟨words, _, run⟩ := ih wellFormed.2 distinct.1 lies
      refine ⟨percent :: words, rfl, fun rest last => ?_⟩
      obtain ⟨misses, value, inner⟩ := run rest last
      have alone : ∀ next ∈ (words ++ rest).head?, ¬ Continues next := by
        intro next member continues
        refine inner.forecast.not_missed ?_
        rw [Option.mem_def.mp member, distinct.2 next continues]
      rw [List.length_cons, Nat.add_comm]
      exact ⟨_, (.modulo, value), .operation wellFormed.1 (percent_look alone) inner⟩
  | map build body ih =>
      obtain ⟨words, head, run⟩ := ih wellFormed distinct lies
      refine ⟨words, head, fun rest last => ?_⟩
      obtain ⟨misses, value, inner⟩ := run rest last
      have whole : Run _ (.map build _) _ misses _ := inner.map
      exact ⟨misses, build value, by simpa using whole⟩
  | located build body ih =>
      simp only [Phrase.wellFormed, Bool.and_eq_true] at wellFormed
      obtain ⟨words, head, run⟩ := ih wellFormed.2 distinct lies
      refine ⟨words, head, fun rest last => ?_⟩
      obtain ⟨misses, value, inner⟩ := run rest last
      have whole : Run _ (.located build _) _ misses _ := .located wellFormed.1 inner
      exact ⟨misses, _, by simpa using whole⟩

theorem Nonterminal.exists_shortest : ∀ {α : Type} (symbol : Nonterminal α),
    ∃ words, (definition symbol).Writes symbol.name words
  | _, symbol =>
      Phrase.exists_shortest (fun lower _ => lower.exists_shortest) (definition_wellFormed symbol)
        (definition_distinct symbol) (definition_lies symbol)
termination_by _ symbol => symbol.height

end CollectionSchema.Peg
