import CollectionSchema.Proofs.Peg.Composition
import CollectionSchema.Proofs.Peg.Sealed
import CollectionSchema.Token.Keyword

/-!
# Echoes of a failed call

A name with a parenthesis behind it can only be the beginning of a call where
statements are read: nothing that takes such a name, and is not a call, goes on with a
parenthesis.  So when the call fails, every attempt to read on from there ends at the
name or at the parenthesis, unless it tries the call once more and fails in the same
way.  Whatever else is noted from some place inside the call on is an echo of what the
call has noted there (`Run.echoes`).
-/

set_option autoImplicit false

namespace CollectionSchema.Peg

open Phrase (behind before between braced separated)

variable {α β : Type}

/-! ## Notes from a place on -/

/-- The notes that point to a place or behind it. -/
def farFrom (place : Nat) (misses : List Miss) : List Miss :=
  misses.filter fun miss => decide (place ≤ miss.position)

/-- The notes of rules that wanted something at the same token. -/
def notesAt (place : Nat) (wishes : List (RuleName × Expectation)) : List Miss :=
  wishes.map fun wish => ⟨place, false, wish.1, wish.2⟩

section Far

variable {place : Nat} {misses later : List Miss}

@[simp] theorem farFrom_append (place : Nat) (misses later : List Miss) :
    farFrom place (misses ++ later) = farFrom place misses ++ farFrom place later :=
  List.filter_append misses later

theorem farFrom_eq_nil (before : ∀ miss ∈ misses, miss.position < place) :
    farFrom place misses = [] :=
  List.filter_eq_nil_iff.mpr fun miss member => by simpa using before miss member

theorem farFrom_shift (taken place : Nat) (misses : List Miss) :
    farFrom (taken + place) (misses.map (Miss.shift taken)) =
      (farFrom place misses).map (Miss.shift taken) := by
  rw [farFrom, List.filter_map, farFrom]
  congr 2
  funext miss
  simp

theorem notesAt_shift (taken place : Nat) (wishes : List (RuleName × Expectation)) :
    (notesAt place wishes).map (Miss.shift taken) = notesAt (taken + place) wishes := by
  rw [notesAt, notesAt, List.map_map]
  rfl

theorem notesAt_append (place : Nat) (wishes others : List (RuleName × Expectation)) :
    notesAt place (wishes ++ others) = notesAt place wishes ++ notesAt place others :=
  List.map_append

end Far

/-- From a place on there are no notes, or first those of some wishes and then only repetitions of
them. -/
def Echoes (wishes : List (RuleName × Expectation)) (place : Nat) (misses : List Miss) : Prop :=
  farFrom place misses = [] ∨ ∃ others, farFrom place misses = notesAt place wishes ++ others ∧
    ∀ miss ∈ others, miss ∈ notesAt place wishes

namespace Echoes

variable {wishes : List (RuleName × Expectation)} {place : Nat} {misses later : List Miss}

theorem silent (before : ∀ miss ∈ misses, miss.position < place) : Echoes wishes place misses :=
  .inl (farFrom_eq_nil before)

theorem append (first : Echoes wishes place misses) (second : Echoes wishes place later) :
    Echoes wishes place (misses ++ later) := by
  rcases first with none | ⟨others, noted, known⟩
  · rwa [Echoes, farFrom_append, none, List.nil_append]
  · refine .inr ⟨others ++ farFrom place later, ?_, ?_⟩
    · rw [farFrom_append, noted, List.append_assoc]
    · intro miss member
      rcases List.mem_append.mp member with member | member
      · exact known miss member
      · rcases second with none | ⟨more, same, repeated⟩
        · rw [none] at member
          cases member
        · rw [same] at member
          exact (List.mem_append.mp member).elim id (repeated miss)

theorem shift (echoes : Echoes wishes place misses) (taken : Nat) :
    Echoes wishes (taken + place) (misses.map (Miss.shift taken)) := by
  rw [Echoes, farFrom_shift, ← notesAt_shift]
  rcases echoes with none | ⟨others, noted, known⟩
  · exact .inl (by rw [none, List.map_nil])
  · refine .inr ⟨others.map (Miss.shift taken), by rw [noted, List.map_append], ?_⟩
    intro miss member
    obtain ⟨inner, inside, rfl⟩ := List.mem_map.mp member
    exact List.mem_map_of_mem (known inner inside)

end Echoes

/-! ## Phrases of statements -/

/-- Whether a symbol is part of a statement. -/
def Nonterminal.inBody : Nonterminal α → Bool
  | .statement | .compound | .simple | .small | .letBinding | .conditional | .branch | .whileLoop
  | .forLoop | .expression | .value | .call => true
  | _ => false

/-- Whether a terminal is asked for in statements; the words among them are keywords. -/
def Terminal.inBody : Terminal α → Bool
  | .mark _ | .identifier | .string | .number => true
  | .word spelling => isContextualKeyword spelling
  | .either first second => isContextualKeyword first && isContextualKeyword second
  | _ => false

/-- Whether a match of a symbol in a statement can end in a name. -/
def Nonterminal.endsInName : Nonterminal α → Bool
  | .value | .expression | .small | .letBinding => true
  | _ => false

namespace Phrase

/-- Whether a phrase is built from parts of statements. -/
def inBody : {α : Type} → Phrase α → Bool
  | _, .token terminal => terminal.inBody
  | _, .reference symbol => symbol.inBody
  | _, .sequence first second | _, .choice first second => first.inBody && second.inBody
  | _, .flagged _ _ => false
  | _, .optional body | _, .many body | _, .operation body | _, .map _ body | _, .located _ body =>
      body.inBody

theorem inBody_sequence_iff {first : Phrase α} {second : Phrase β} :
    (sequence first second).inBody = true ↔ first.inBody = true ∧ second.inBody = true :=
  Bool.and_eq_true_iff

theorem inBody_choice_iff {first second : Phrase α} :
    (choice first second).inBody = true ↔ first.inBody = true ∧ second.inBody = true :=
  Bool.and_eq_true_iff

/-- Whether a match of a phrase can end in a name. -/
def endsInName : {α : Type} → Phrase α → Bool
  | _, .token .identifier => true
  | _, .token _ => false
  | _, .reference symbol => symbol.endsInName
  | _, .sequence first second => second.endsInName || !second.consumes && first.endsInName
  | _, .choice first second => first.endsInName || second.endsInName
  | _, .optional body | _, .many body | _, .flagged _ body | _, .operation body | _, .map _ body
  | _, .located _ body => body.endsInName

/-- Whether a phrase asks for a single token. -/
def isToken : {α : Type} → Phrase α → Bool
  | _, .token _ => true
  | _, _ => false

/-- What is known of a phrase in front of an opening parenthesis. -/
def AtParenthesis (phrase : Phrase α) (forecast : Forecast) : Prop :=
  ∀ opening : Token, opening.isSymbol '(' = true → phrase.forecast (some opening) = forecast

/-- No part of a phrase takes a parenthesis behind a part that ends in a name.  When that name is
known not to be the first token, a name at the very start may be followed by a parenthesis. -/
def Calm : {α : Type} → Bool → Phrase α → Prop
  | _, start, .sequence first second => first.Calm start ∧ second.Calm true ∧
      (first.endsInName = true → (start = false → first.isToken = false) →
        second.AtParenthesis .missed ∨ second.AtParenthesis .empty)
  | _, _, .many body => body.Calm true ∧ (body.endsInName = true → body.AtParenthesis .missed)
  | _, start, .choice first second => first.Calm start ∧ second.Calm start
  | _, _, .operation operand => operand.Calm true
  | _, start, .optional body | _, start, .map _ body | _, start, .located _ body
  | _, start, .flagged _ body => body.Calm start
  | _, _, .token _ | _, _, .reference _ => True

theorem isOperator_of_parenthesis {opening : Token} (mark : opening.isSymbol '(' = true) :
    isOperator opening = false := by
  obtain ⟨kind, lexeme⟩ := isSymbol_iff.mp mark
  rw [isOperator, lexeme]
  simp [Operator.ofSpelling?, Operator.all, Operator.spelling]

namespace AtParenthesis

variable {body : Phrase α}

theorem mark {character : Char} (other : character ≠ '(') :
    (Phrase.token (.mark character)).AtParenthesis .missed := by
  intro opening parenthesis
  simp [forecast, Terminal.read, isSymbol_of_ne parenthesis other.symm]

theorem behind {character : Char} (other : character ≠ '(') :
    (behind (.mark character) body).AtParenthesis .missed := by
  intro opening parenthesis
  have missed := mark other opening parenthesis
  simp only [Phrase.behind, forecast] at missed ⊢
  rw [missed]

theorem optional (missed : body.AtParenthesis .missed) :
    (Phrase.optional body).AtParenthesis .empty := by
  intro opening parenthesis
  rw [forecast, missed opening parenthesis]

theorem many (missed : body.AtParenthesis .missed) :
    (Phrase.many body).AtParenthesis .empty := by
  intro opening parenthesis
  rw [forecast, missed opening parenthesis]

theorem operation : (Phrase.operation body).AtParenthesis .missed := by
  intro opening parenthesis
  simp [forecast, isOperator_of_parenthesis parenthesis]

end AtParenthesis

end Phrase

theorem definition_inBody (symbol : Nonterminal α) (inside : symbol.inBody = true) :
    (definition symbol).inBody = true := by
  cases symbol <;> first | exact absurd inside Bool.false_ne_true | decide

theorem definition_endsInName (symbol : Nonterminal α) (inside : symbol.inBody = true) :
    (definition symbol).endsInName = symbol.endsInName := by
  cases symbol <;> first | exact absurd inside Bool.false_ne_true | rfl

/-- Whether a symbol is the call. -/
def Nonterminal.isCall : Nonterminal α → Bool
  | .call => true
  | _ => false

open Phrase.AtParenthesis in
theorem definition_calm (symbol : Nonterminal α) (inside : symbol.inBody = true) :
    (definition symbol).Calm !symbol.isCall := by
  cases symbol <;> try exact absurd inside Bool.false_ne_true
  all_goals
    simp only [definition, Phrase.Calm, Phrase.endsInName, Phrase.isToken, Phrase.consumes,
      Phrase.behind, Phrase.before, Phrase.between, Phrase.braced, Phrase.separated,
      Nonterminal.endsInName, Nonterminal.isCall, Bool.false_eq_true, Bool.true_eq_false,
      Bool.or_false, Bool.not_true, Bool.not_false, Bool.and_true, Bool.or_self, Bool.and_self,
      false_implies, true_implies, and_true, true_and, and_self, imp_self]
  case simple | conditional | whileLoop | value => exact .inl (mark (by decide))
  case letBinding => exact .inl (behind (by decide))
  case forLoop => exact ⟨.inl (mark (by decide)), .inl (mark (by decide))⟩
  case expression => exact .inr (optional operation)
  case call =>
      exact ⟨⟨behind (by decide), .inr (many (behind (by decide)))⟩, .inl (mark (by decide))⟩

/-! ## Runs behind and at a failed call -/

/-- A name that is no keyword, with a parenthesis behind it. -/
structure OpensCall (callee opening : Token) : Prop where
  kind : callee.kind = .identifier
  plain : isContextualKeyword callee.lexeme = false
  mark : opening.isSymbol '(' = true

namespace OpensCall

variable {callee opening : Token}

theorem isSymbol (opens : OpensCall callee opening) (character : Char) :
    callee.isSymbol character = false := by
  apply isSymbol_of_kind
  rw [opens.kind]
  decide

theorem isWord (opens : OpensCall callee opening) {spelling : String}
    (keyword : isContextualKeyword spelling = true) : callee.isWord spelling = false := by
  refine Bool.eq_false_iff.mpr fun word => ?_
  have plain := opens.plain
  rw [(isWord_iff.mp word).2, keyword] at plain
  cases plain

/-- Of all that statements ask for, only a name is found in the name of a call. -/
theorem endsInName_of_read (opens : OpensCall callee opening) {terminal : Terminal α} {value : α}
    (inside : terminal.inBody = true) (read : terminal.read callee = some value) :
    (Phrase.token terminal).endsInName = true := by
  cases terminal <;> simp only [Terminal.inBody, Bool.and_eq_true] at inside <;>
    simp only [Terminal.read] at read
  case identifier => rfl
  case mark => simp [opens.isSymbol] at read
  case word => simp [opens.isWord inside] at read
  case either => simp [opens.isWord inside.1, opens.isWord inside.2] at read
  case string | number => simp [opens.kind] at read
  all_goals cases inside

end OpensCall

/-- A call that fails, with a name in front of it and wishes at some place inside it. -/
structure FailedCall (wishes : List (RuleName × Expectation)) (place : Nat) (tokens : List Token) :
    Prop where
  opens : ∃ callee opening rest, tokens = callee :: opening :: rest ∧ OpensCall callee opening
  fails : ∃ notes, Run .call (definition .call) tokens notes none ∧ Echoes wishes place notes
  inside : 2 ≤ place

/-- What is known of a run that can come as far as a failed call. -/
structure Halted (wishes : List (RuleName × Expectation)) (place far : Nat) (phrase : Phrase α)
    (misses : List Miss) (found : Option (α × Nat)) : Prop where
  echoes : Echoes wishes (place + far) misses
  taken : ∀ value count, found = some (value, count) →
    count ≤ place ∨ count = place + 1 ∧ phrase.endsInName = true

theorem le_of_look_operator {tokens : List Token} {operator : Operator} {taken place : Nat}
    (read : Recognizer.operator.look tokens = some (operator, taken)) {callee : Token}
    (here : tokens[place]? = some callee) (name : callee.kind = .identifier) : taken ≤ place := by
  rcases look_operator_cases read with
    ⟨first, rest, rfl, rfl, symbol, _⟩ | ⟨first, second, rest, rfl, rfl, symbol, also, _⟩
  · rcases place with _ | place
    · cases here
      rw [symbol] at name
      cases name
    · omega
  · rcases place with _ | _ | place
    · cases here
      rw [symbol] at name
      cases name
    · cases here
      rw [also] at name
      cases name
    · omega

section Runs

variable {name : RuleName} {phrase : Phrase α} {tokens : List Token} {misses : List Miss}
  {found : Option (α × Nat)} {wishes : List (RuleName × Expectation)} {far : Nat}

theorem FailedCall.drop {place count : Nat} (failed : FailedCall wishes far (tokens.drop place))
    (le : count ≤ place) : FailedCall wishes far ((tokens.drop count).drop (place - count)) := by
  rwa [List.drop_drop, Nat.add_sub_cancel' le]

/-- What is shifted from behind some tokens. -/
theorem Echoes.behind {place taken : Nat} (le : taken ≤ place)
    (echoes : Echoes wishes (place - taken + far) misses) :
    Echoes wishes (place + far) (misses.map (Miss.shift taken)) := by
  have shifted := echoes.shift taken
  rwa [← Nat.add_assoc, Nat.add_sub_cancel' le] at shifted

theorem Run.taken_of_isToken {value : α} {taken : Nat}
    (run : Run name phrase tokens misses (some (value, taken))) (single : phrase.isToken = true) :
    taken = 1 := by
  cases phrase with
  | token terminal => exact run.of_token.2.1
  | _ => cases single

/-- In front of the parenthesis of a failed call, nothing is read on. -/
theorem Run.at_parenthesis {opening : Token} {rest : List Token}
    (run : Run name phrase (opening :: rest) misses found) (mark : opening.isSymbol '(' = true)
    (clear : phrase.AtParenthesis .missed ∨ phrase.AtParenthesis .empty) :
    (∀ miss ∈ misses, miss.position = 0) ∧ ∀ value count, found = some (value, count) →
      count = 0 ∧ phrase.consumes = false := by
  have known : phrase.forecast (some opening) ≠ .unclear := by
    rcases clear with clear | clear <;> rw [clear opening mark] <;> exact nofun
  refine ⟨run.noted_here known, fun value count matched => ?_⟩
  subst matched
  have none : count = 0 := by
    have holds := run.forecast
    rcases clear with clear | clear <;> rw [List.head?_cons, clear opening mark] at holds
    · cases holds
    · obtain ⟨_, same⟩ := holds
      exact (Prod.mk.inj (Option.some.inj same)).2
  refine ⟨none, Bool.eq_false_iff.mpr fun consumes => ?_⟩
  have progress := run.progress consumes rfl
  omega

/-- Behind the name of a failed call, nothing is read on and nothing is noted from the wished place
on. -/
theorem FailedCall.silent_behind {place : Nat}
    (failed : FailedCall wishes far (tokens.drop place))
    (run : Run name phrase (tokens.drop (place + 1)) misses found)
    (clear : phrase.AtParenthesis .missed ∨ phrase.AtParenthesis .empty) :
    Echoes wishes (place + far) (misses.map (Miss.shift (place + 1))) ∧
      ∀ value count, found = some (value, count) → count = 0 ∧ phrase.consumes = false := by
  obtain ⟨callee, opening, rest, same, opens⟩ := failed.opens
  rw [← List.drop_drop, same, List.drop_one, List.tail_cons] at run
  obtain ⟨here, none⟩ := run.at_parenthesis opens.mark clear
  refine ⟨.silent fun miss member => ?_, none⟩
  obtain ⟨inner, noted, rfl⟩ := List.mem_map.mp member
  have inCall := failed.inside
  rw [Miss.shift_position, here inner noted]
  omega

/-- What is noted only at the first token is in front of the wished place. -/
theorem Halted.missed {place : Nat} (first : ∀ miss ∈ misses, miss.position = 0)
    (failed : FailedCall wishes far (tokens.drop place)) :
    Halted wishes place far phrase misses none := by
  refine ⟨.silent fun miss member => ?_, nofun⟩
  have inCall := failed.inside
  rw [first miss member]
  omega

/-- What is known of a run of a part of a statement, wherever it can come as far as a failed
call. -/
def HaltsAtCall (wishes : List (RuleName × Expectation)) (far : Nat) (phrase : Phrase α)
    (tokens : List Token) (misses : List Miss) (found : Option (α × Nat)) : Prop :=
  ∀ {place : Nat} {start : Bool}, phrase.inBody = true → phrase.Calm start →
    (start = false → 0 < place) → FailedCall wishes far (tokens.drop place) →
    Halted wishes place far phrase misses found

namespace HaltsAtCall

theorem token {terminal : Terminal α} {first : Token} {rest : List Token} {value : α}
    (read : terminal.read first = some value) :
    HaltsAtCall wishes far (.token terminal) (first :: rest) [] (some (value, 1)) := by
  intro place start inside _ _ failed
  refine ⟨.silent (List.forall_mem_nil _), ?_⟩
  rintro _ _ ⟨⟩
  rcases place with _ | place
  · obtain ⟨callee, opening, rest, same, opens⟩ := failed.opens
    cases same
    exact .inr ⟨rfl, opens.endsInName_of_read inside read⟩
  · exact .inl (Nat.le_add_left 1 place)

/-- The call itself is the failed one where it is tried at the name; every other symbol halts as
its definition does. -/
theorem reference {symbol : Nonterminal α}
    (run : Run symbol.name (definition symbol) tokens misses found)
    (inner : HaltsAtCall wishes far (definition symbol) tokens misses found) :
    HaltsAtCall wishes far (.reference symbol) tokens misses found := by
  intro place start inside _ _ failed
  by_cases whole : symbol.isCall = true ∧ place = 0
  · obtain ⟨isCall, rfl⟩ := whole
    cases symbol with
    | call =>
        obtain ⟨notes, fails, echoes⟩ := failed.fails
        obtain ⟨rfl, rfl⟩ := run.unique fails
        exact ⟨by rwa [Nat.zero_add], nofun⟩
    | _ => cases isCall
  · have late : (!symbol.isCall) = false → 0 < place := by
      intro isCall
      rw [Bool.not_eq_false'] at isCall
      exact Nat.pos_of_ne_zero fun zero => whole ⟨isCall, zero⟩
    obtain ⟨echoes, taken⟩ := inner (definition_inBody symbol inside)
      (definition_calm symbol inside) late failed
    rw [definition_endsInName symbol inside] at taken
    exact ⟨echoes, taken⟩

/-- Behind a first part that ends at the name of the call, the second one stands at the
parenthesis; otherwise it stands in front of the call. -/
theorem sequence {first : Phrase α} {second : Phrase β} {later : List Miss} {value : α}
    {taken : Nat} {result : Option (β × Nat)}
    (left : Run name first tokens misses (some (value, taken)))
    (right : Run name second (tokens.drop taken) later result)
    (front : HaltsAtCall wishes far first tokens misses (some (value, taken)))
    (behind : HaltsAtCall wishes far second (tokens.drop taken) later result) :
    HaltsAtCall wishes far (.sequence first second) tokens (misses ++ later.map (Miss.shift taken))
      (further (fun other => (value, other)) taken result) := by
  intro place start inside calm late failed
  rw [Phrase.inBody_sequence_iff] at inside
  obtain ⟨before, stops⟩ := front inside.1 calm.1 late failed
  rcases stops _ _ rfl with le | ⟨rfl, ends⟩
  · obtain ⟨echoes, counted⟩ := behind inside.2 calm.2.1 nofun (failed.drop le)
    refine ⟨before.append (echoes.behind le), fun both count matched => ?_⟩
    obtain ⟨inner, more, rfl, _, rfl⟩ := further_eq_some_iff.mp matched
    rcases counted inner more rfl with less | ⟨rfl, also⟩
    · exact .inl (by omega)
    · exact .inr ⟨by omega, by rw [Phrase.endsInName, also, Bool.true_or]⟩
  · have early : start = false → first.isToken = false := by
      intro isLate
      refine Bool.eq_false_iff.mpr fun single => ?_
      have := left.taken_of_isToken single
      have := late isLate
      omega
    obtain ⟨silent, none⟩ := failed.silent_behind right (calm.2.2 ends early)
    refine ⟨before.append silent, fun both count matched => ?_⟩
    obtain ⟨inner, more, rfl, _, rfl⟩ := further_eq_some_iff.mp matched
    obtain ⟨rfl, nullable⟩ := none inner more rfl
    exact .inr ⟨rfl, by rw [Phrase.endsInName, ends, nullable]; simp⟩

theorem choiceFirst {first second : Phrase α}
    (inner : HaltsAtCall wishes far first tokens misses found) :
    HaltsAtCall wishes far (.choice first second) tokens misses found := by
  intro place start inside calm late failed
  rw [Phrase.inBody_choice_iff] at inside
  obtain ⟨echoes, taken⟩ := inner inside.1 calm.1 late failed
  exact ⟨echoes, fun value count matched => (taken value count matched).imp id fun ends =>
    ⟨ends.1, by rw [Phrase.endsInName, ends.2, Bool.true_or]⟩⟩

theorem choiceSecond {first second : Phrase α} {later : List Miss}
    (left : HaltsAtCall wishes far first tokens misses none)
    (right : HaltsAtCall wishes far second tokens later found) :
    HaltsAtCall wishes far (.choice first second) tokens (misses ++ later) found := by
  intro place start inside calm late failed
  rw [Phrase.inBody_choice_iff] at inside
  obtain ⟨echoes, taken⟩ := right inside.2 calm.2 late failed
  exact ⟨(left inside.1 calm.1 late failed).echoes.append echoes,
    fun value count matched => (taken value count matched).imp id fun ends =>
      ⟨ends.1, by rw [Phrase.endsInName, ends.2, Bool.or_true]⟩⟩

/-- As for two parts in a row, with the rest of the repetition as the second one. -/
theorem many {body : Phrase α} {later : List Miss} {item : α} {items : List α} {taken more : Nat}
    (others : Run name (.many body) (tokens.drop taken) later (some (items, more)))
    (inner : HaltsAtCall wishes far body tokens misses (some (item, taken)))
    (behind : HaltsAtCall wishes far (.many body) (tokens.drop taken) later (some (items, more))) :
    HaltsAtCall wishes far (.many body) tokens (misses ++ later.map (Miss.shift taken))
      (some (item :: items, taken + more)) := by
  intro place start inside calm _ failed
  obtain ⟨before, stops⟩ := inner inside calm.1 nofun failed
  rcases stops _ _ rfl with le | ⟨rfl, ends⟩
  · have late : (Phrase.many body).Calm true := calm
    obtain ⟨echoes, counted⟩ := behind inside late nofun (failed.drop le)
    refine ⟨before.append (echoes.behind le), ?_⟩
    rintro _ _ ⟨⟩
    rcases counted _ _ rfl with less | ⟨rfl, also⟩
    · exact .inl (by omega)
    · exact .inr ⟨by omega, also⟩
  · obtain ⟨silent, none⟩ := failed.silent_behind others
      (.inr (Phrase.AtParenthesis.many (calm.2 ends)))
    obtain ⟨rfl, _⟩ := none _ _ rfl
    refine ⟨before.append silent, ?_⟩
    rintro _ _ ⟨⟩
    exact .inr ⟨rfl, ends⟩

/-- An operator does not reach into the name of a call. -/
theorem operation {operand : Phrase α} {operator : Operator} {taken : Nat}
    (read : Recognizer.operator.look tokens = some (operator, taken))
    (inner : HaltsAtCall wishes far operand (tokens.drop taken) misses found) :
    HaltsAtCall wishes far (.operation operand) tokens (misses.map (Miss.shift taken))
      (further (fun value => (operator, value)) taken found) := by
  intro place start inside calm _ failed
  obtain ⟨callee, opening, rest, same, opens⟩ := failed.opens
  have here : tokens[place]? = some callee := by
    rw [← List.head?_drop, same]
    rfl
  have le := le_of_look_operator read here opens.kind
  obtain ⟨echoes, counted⟩ := inner inside calm nofun (failed.drop le)
  refine ⟨echoes.behind le, fun both count matched => ?_⟩
  obtain ⟨value, more, rfl, _, rfl⟩ := further_eq_some_iff.mp matched
  rcases counted value more rfl with less | ⟨rfl, also⟩
  · exact .inl (by omega)
  · exact .inr ⟨by omega, also⟩

end HaltsAtCall

/-- Every run of a part of a statement that comes as far as a failed call stops at its name or at
its parenthesis, and leaves an echo of what the call has noted. -/
theorem Run.echoes (run : Run name phrase tokens misses found) :
    ∀ {place : Nat} {start : Bool}, phrase.inBody = true → phrase.Calm start →
      (start = false → 0 < place) → FailedCall wishes far (tokens.drop place) →
      Halted wishes place far phrase misses found := by
  induction run with
  | token read => exact HaltsAtCall.token read
  | tokenMissed _ =>
      intro place start _ _ _ failed
      exact .missed (Terminal.misses_position _ _ _) failed
  | reference inner ih => exact HaltsAtCall.reference inner ih
  | sequenceMissed _ ih =>
      intro place start inside calm late failed
      rw [Phrase.inBody_sequence_iff] at inside
      exact ⟨(ih inside.1 calm.1 late failed).echoes, nofun⟩
  | sequence left right ihLeft ihRight => exact HaltsAtCall.sequence left right ihLeft ihRight
  | choiceFirst _ ih => exact HaltsAtCall.choiceFirst ih
  | choiceSecond _ _ ihLeft ihRight => exact HaltsAtCall.choiceSecond ihLeft ihRight
  | optional _ ih =>
      intro place start inside calm late failed
      obtain ⟨echoes, taken⟩ := ih inside calm late failed
      refine ⟨echoes, ?_⟩
      rintro _ _ ⟨⟩
      exact taken _ _ rfl
  | optionalMissed _ ih =>
      intro place start inside calm late failed
      refine ⟨(ih inside calm late failed).echoes, ?_⟩
      rintro _ _ ⟨⟩
      exact .inl (Nat.zero_le _)
  | manyEnd _ ih =>
      intro place start inside calm late failed
      refine ⟨(ih inside calm.1 nofun failed).echoes, ?_⟩
      rintro _ _ ⟨⟩
      exact .inl (Nat.zero_le _)
  | many _ _ others ihInner ihOthers => exact HaltsAtCall.many others ihInner ihOthers
  | flagged _ _ _ | flaggedUnset _ _ _ _ => exact nofun
  | operationMissed _ =>
      intro place start _ _ _ failed
      exact .missed (by simp) failed
  | operation _ read _ ih => exact HaltsAtCall.operation read ih
  | map _ ih | located _ _ ih =>
      intro place start inside calm late failed
      obtain ⟨echoes, taken⟩ := ih inside calm late failed
      refine ⟨echoes, fun value count matched => ?_⟩
      obtain ⟨inner, more, rfl, _, rfl⟩ := further_eq_some_iff.mp matched
      rw [Nat.zero_add]
      exact taken inner more rfl

end Runs

end CollectionSchema.Peg
