import CollectionSchema.Proofs.Peg.Echo
import CollectionSchema.Proofs.Peg.Locality
import CollectionSchema.Proofs.Peg.Making

/-!
# Arguments that are read alone

An expression looks at most at one token behind it: a parenthesis there would make a
call of a name at its end, and an operator would make a longer expression of a single
value.  So an expression that is read from some tokens alone is read from them again
wherever a token follows that is neither (`expression_again`), and what it notes about
that token is just what it has looked for there (`expression_far`).
-/

set_option autoImplicit false

namespace CollectionSchema

/-- Whether a value is a plain name. -/
def Value.isName : Value → Bool
  | .identifier _ _ => true
  | _ => false

namespace Expression

/-- Whether an expression is a value without an operator. -/
def isSingle : Expression → Bool
  | .single _ _ => true
  | .binary _ _ _ _ => false

/-- The last value of an expression. -/
def last : Expression → Value
  | .single _ left => left
  | .binary _ _ _ right => right

end Expression

namespace Peg

open Phrase (behind before between separated)

variable {α β : Type}

theorem le_of_farFrom {place : Nat} {misses : List Miss} {wishes : List (RuleName × Expectation)}
    (far : farFrom place misses = notesAt place wishes) :
    ∀ miss ∈ misses, miss.position ≤ place := by
  intro miss member
  rcases Nat.lt_or_ge miss.position place with before | behind
  · exact Nat.le_of_lt before
  · have noted : miss ∈ farFrom place misses := List.mem_filter.mpr ⟨member, by simpa using behind⟩
    rw [far] at noted
    obtain ⟨_, _, rfl⟩ := List.mem_map.mp noted
    exact Nat.le_refl place

/-! ## Values -/

/-- What is looked for behind a value: the parenthesis that would make a call of a name. -/
def valueWishes (value : Value) : List (RuleName × Expectation) :=
  if value.isName then [(.call, .mark '(')] else []

section Values

variable {name : RuleName} {tokens rest : List Token} {misses : List Miss} {value : Value}
  {taken : Nat} {first : Token}

/-- A name without a parenthesis behind it is no call. -/
theorem call_of_name (kind : first.kind = .identifier)
    (next : ∀ token ∈ rest.head?, token.isSymbol '(' = false) :
    Run .call (definition .call) (first :: rest) (notesAt 1 [(.call, .mark '(')]) none := by
  have read : Terminal.identifier.read first = some first.lexeme := by
    simp [Terminal.read, kind]
  exact .located rfl (.sequence (.token read) (.make_behind_missed (unread_mark next)))

theorem located_token_missed {terminal : Terminal α} {build : Position → α → β}
    (run : Run name (.located build (.token terminal)) tokens misses none) :
    (∀ miss ∈ misses, miss.position = 0) ∧ tokens.head?.bind terminal.read = none := by
  obtain ⟨_ | _, inner, matched⟩ := run.tried
  · exact ⟨inner.position_of_token_missed, unread_of_missed inner⟩
  · cases matched

theorem located_token_matched {terminal : Terminal α} {build : Position → α → β} {result : β}
    (run : Run name (.located build (.token terminal)) tokens misses (some (result, taken))) :
    misses = [] ∧ taken = 1 ∧ ∃ first rest value, tokens = first :: rest ∧
      terminal.read first = some value ∧ build first.position value = result := by
  obtain ⟨_ | ⟨value, count⟩, inner, matched⟩ := run.tried
  · cases matched
  · obtain ⟨rfl, rfl, first, rest, rfl, read⟩ := inner.of_token
    cases matched
    exact ⟨rfl, rfl, first, rest, value, rfl, read, rfl⟩

/-- A name that is none of the two truth values is read as a name where it is no call. -/
theorem value_of_name {notes : List Miss} (kind : first.kind = .identifier)
    (notTrue : first.isWord "true" = false) (notFalse : first.isWord "false" = false)
    (missed : Run .call (definition .call) (first :: rest) notes none) :
    ∃ front, (∀ miss ∈ front, miss.position = 0) ∧
      Run .value (definition .value) (first :: rest) (front ++ notes)
        (some (.identifier first.position first.lexeme, 1)) := by
  have number : (first :: rest).head?.bind Terminal.number.read = none := by
    simp [Terminal.read, kind]
  have string : (first :: rest).head?.bind Terminal.string.read = none := by
    simp [Terminal.read, kind]
  have boolean : (first :: rest).head?.bind (Terminal.either "true" "false").read = none := by
    simp [Terminal.read, notTrue, notFalse]
  have read : Terminal.identifier.read first = some first.lexeme := by
    simp [Terminal.read, kind]
  refine ⟨Terminal.number.misses .value (some first) ++
    (Terminal.string.misses .value (some first) ++
      (Terminal.either "true" "false").misses .value (some first)), ?_, ?_⟩
  · simp only [List.mem_append]
    rintro miss (member | member | member) <;> exact Terminal.misses_position _ _ _ miss member
  · have plain : Run .value (.choice (.reference .call)
        (.choice (.located .identifier (.token .identifier))
          (.located .enclosed (between '(' ')' (.reference .expression))))) (first :: rest)
        (notes ++ []) (some (.identifier first.position first.lexeme, 1)) :=
      .choiceSecond (.reference missed) (.choiceFirst (.located rfl (.token read)))
    rw [List.append_nil] at plain
    rw [List.append_assoc, List.append_assoc]
    exact .choiceSecond (.located rfl (.tokenMissed number))
      (.choiceSecond (.located rfl (.tokenMissed string))
        (.choiceSecond (.located rfl (.tokenMissed boolean)) plain))

theorem here_append_lt {front later : List Miss} (positive : 0 < taken)
    (here : ∀ miss ∈ front, miss.position = 0) (further : ∀ miss ∈ later, miss.position < taken) :
    ∀ miss ∈ front ++ later, miss.position < taken := by
  intro miss member
  rcases List.mem_append.mp member with member | member
  · rw [here miss member]
    exact positive
  · exact further miss member

/-- A call is sealed: it ends in a parenthesis. -/
theorem call_lt (run : Run .call (definition .call) tokens misses (some (value, taken))) :
    ∀ miss ∈ misses, miss.position < taken := by
  obtain ⟨_, whole⟩ := run.of_located
  obtain ⟨_, _, _, _, _, _, callee, bracketed, _, rfl, rfl⟩ := whole.of_sequence
  obtain ⟨rfl, rfl, _⟩ := callee.of_token
  exact shifted_lt (bracketed.between_le Brackets.balanced_parentheses rfl)

theorem isName_of_call (run : Run .call (definition .call) tokens misses (some (value, taken))) :
    value.isName = false := by
  obtain ⟨_ | _, _, matched⟩ := run.tried
  · cases matched
  · cases matched
    rfl

/-- What is tried for a value that is no plain name is tried in front of its last token. -/
theorem value_cases
    (run : Run .value (definition .value) tokens misses (some (value, taken))) :
    (value.isName = false ∧ ∀ miss ∈ misses, miss.position < taken) ∨
    (value.isName = true ∧ taken = 1 ∧ ∃ first rest, tokens = first :: rest ∧
      first.kind = .identifier ∧ first.isWord "true" = false ∧ first.isWord "false" = false) := by
  have positive : 0 < taken := run.progress rfl rfl
  rcases run.tried with ⟨_, number⟩ | ⟨_, _, number, afterNumber, rfl⟩
  · obtain ⟨rfl, rfl, _, _, _, _, _, rfl⟩ := located_token_matched number
    exact .inl ⟨rfl, List.forall_mem_nil _⟩
  rcases afterNumber.tried with ⟨_, string⟩ | ⟨_, _, string, afterString, rfl⟩
  · obtain ⟨rfl, rfl, _, _, _, _, _, rfl⟩ := located_token_matched string
    exact .inl ⟨rfl, here_append_lt positive (located_token_missed number).1
      (List.forall_mem_nil _)⟩
  rcases afterString.tried with ⟨_, boolean⟩ | ⟨_, _, boolean, afterBoolean, rfl⟩
  · obtain ⟨rfl, rfl, _, _, _, _, _, rfl⟩ := located_token_matched boolean
    exact .inl ⟨rfl, here_append_lt positive (located_token_missed number).1
      (here_append_lt positive (located_token_missed string).1
        (List.forall_mem_nil _))⟩
  obtain ⟨atBoolean, unread⟩ := located_token_missed boolean
  have behindWords : ∀ {later : List Miss}, (∀ miss ∈ later, miss.position < taken) → _ :=
    fun further => here_append_lt positive (located_token_missed number).1
      (here_append_lt positive (located_token_missed string).1
        (here_append_lt positive atBoolean further))
  rcases afterBoolean.tried with ⟨_, call⟩ | ⟨_, _, call, afterCall, rfl⟩
  · exact .inl ⟨isName_of_call call.tried, behindWords (call_lt call.tried)⟩
  rcases afterCall.tried with ⟨_, plain⟩ | ⟨_, _, plain, enclosed, rfl⟩
  · obtain ⟨rfl, rfl, first, rest, _, rfl, read, rfl⟩ := located_token_matched plain
    simp only [List.head?_cons, Option.bind_some, Terminal.read] at unread
    refine .inr ⟨rfl, rfl, first, rest, rfl, kind_of_read_identifier read, ?_, ?_⟩ <;> grind
  · obtain ⟨_ | ⟨inner, count⟩, whole, matched⟩ := enclosed.tried
    · cases matched
    cases matched
    obtain ⟨opening, head, mark⟩ := exists_head_of_between whole
    have noCall := call.noted_here (by
      rw [Option.mem_def.mp head]
      simp [Phrase.forecast, Nonterminal.starts, (isSymbol_iff.mp mark).1])
    rw [Nat.zero_add] at positive behindWords ⊢
    exact .inl ⟨rfl, behindWords (here_append_lt positive noCall
      (here_append_lt positive (located_token_missed plain).1
        (whole.between_le Brackets.balanced_parentheses rfl)))⟩

/-- What a value notes about the token behind it, when that does not make it a call. -/
theorem value_far
    (run : Run .value (definition .value) tokens misses (some (value, taken)))
    (next : value.isName = true → ∀ token ∈ (tokens.drop taken).head?, token.isSymbol '(' = false) :
    farFrom taken misses = notesAt taken (valueWishes value) := by
  rcases value_cases run with
    ⟨other, before⟩ | ⟨isName, rfl, first, rest, rfl, kind, notTrue, notFalse⟩
  · rw [farFrom_eq_nil before, valueWishes, other]
    rfl
  · have ends : ∀ token ∈ rest.head?, token.isSymbol '(' = false := next isName
    obtain ⟨front, here, again⟩ := value_of_name kind notTrue notFalse (call_of_name kind ends)
    rw [(run.unique again).1, farFrom_append, farFrom_eq_nil fun miss member => by
      rw [here miss member]; exact Nat.one_pos, valueWishes, isName]
    rfl

/-- A value that is all that some tokens write is read again where they go on. -/
theorem value_again
    (run : Run .value (definition .value) tokens misses (some (value, tokens.length)))
    (next : value.isName = true → ∀ token ∈ rest.head?, token.isSymbol '(' = false) :
    ∃ later, Run .value (definition .value) (tokens ++ rest) later
      (some (value, tokens.length)) := by
  rcases value_cases run with
    ⟨other, before⟩ | ⟨isName, single, first, others, rfl, kind, notTrue, notFalse⟩
  · exact ⟨misses, run.steady ⟨before, by rintro _ _ ⟨⟩; exact Nat.le_refl _⟩
      (by rw [List.take_left', List.take_length]; rfl)⟩
  · obtain rfl : others = [] := List.eq_nil_of_length_eq_zero (Nat.succ.inj single)
    have ends : ∀ token ∈ ([] : List Token).head?, token.isSymbol '(' = false := nofun
    obtain ⟨_, _, alone⟩ := value_of_name kind notTrue notFalse (call_of_name kind ends)
    obtain ⟨_, matched⟩ := run.unique alone
    obtain ⟨_, _, again⟩ := value_of_name kind notTrue notFalse (call_of_name kind (next isName))
    rw [matched]
    exact ⟨_, again⟩

end Values

/-! ## Expressions -/

/-- What is looked for behind an expression: the parenthesis that would make a call of a name at its
end, and the operator that would go on behind a single value. -/
def expressionWishes (expression : Expression) : List (RuleName × Expectation) :=
  valueWishes expression.last ++ if expression.isSingle then [(.expression, .operator)] else []

/-- A token that an expression cannot go on with. -/
structure EndsExpression (expression : Expression) (next : Option Token) : Prop where
  call : expression.last.isName = true → ∀ token ∈ next, token.isSymbol '(' = false
  operator : expression.isSingle = true → ∀ token ∈ next, isOperator token = false

section Expressions

variable {name : RuleName} {tokens rest : List Token} {misses : List Miss}
  {expression : Expression} {taken : Nat}

theorem look_operator_none (next : ∀ token ∈ tokens.head?, isOperator token = false) :
    Recognizer.operator.look tokens = none := by
  refine look_operator_eq_none_iff.mpr fun first here symbol => ?_
  have other := next first here
  rw [isOperator, symbol] at other
  simpa using other

theorem isSymbol_of_look {operator : Operator} {count : Nat}
    (read : Recognizer.operator.look tokens = some (operator, count)) :
    ∀ token ∈ tokens.head?, token.isSymbol '(' = false := by
  rintro token here
  refine Bool.eq_false_iff.mpr fun mark => ?_
  have plain : ∀ first ∈ tokens.head?, isOperator first = false := by
    intro first head
    obtain rfl : token = first := Option.some.inj (here.symm.trans head)
    exact Phrase.isOperator_of_parenthesis mark
  rw [look_operator_none plain] at read
  cases read

/-- How an expression was read: a value with no operator behind it, or two values around an
operator. -/
theorem expression_cases
    (run : Run .expression (definition .expression) tokens misses (some (expression, taken))) :
    (∃ value front behind, Run .value (definition .value) tokens front (some (value, taken)) ∧
      Run .expression (.operation (.reference .value)) (tokens.drop taken) behind none ∧
      expression = .single value.position value ∧
      misses = front ++ behind.map (Miss.shift taken)) ∨
    ∃ left right operator front behind before count more,
      Run .value (definition .value) tokens front (some (left, before)) ∧
      Recognizer.operator.look (tokens.drop before) = some (operator, count) ∧
      Run .value (definition .value) ((tokens.drop before).drop count) behind
        (some (right, more)) ∧
      expression = .binary left.position left operator right ∧
      misses = front ++ (behind.map (Miss.shift count)).map (Miss.shift before) ∧
      taken = before + (count + more) := by
  obtain ⟨_, whole, rfl⟩ := run.of_map
  obtain ⟨left, _, front, later, before, _, value, operation, rfl, rfl, rfl⟩ := whole.of_sequence
  rcases operation.tried with ⟨_, _, operated, matched⟩ | ⟨missed, matched⟩ <;> cases matched
  · rcases operated.tried with ⟨_, matched⟩ | ⟨operator, count, behind, _ | ⟨right, more⟩, read,
      operand, rfl, matched⟩ <;> cases matched
    exact .inr ⟨left, right, operator, front, behind, before, count, more, value.tried, read,
      operand.tried, rfl, rfl, rfl⟩
  · exact .inl ⟨left, front, later, value.tried, missed, rfl, rfl⟩

/-- A value with no operator behind it is an expression. -/
theorem expression_of_single {value : Value} {front : List Miss}
    (run : Run .value (definition .value) tokens front (some (value, taken)))
    (next : ∀ token ∈ (tokens.drop taken).head?, isOperator token = false) :
    Run .expression (definition .expression) tokens
      (front ++ notesAt taken [(.expression, .operator)])
      (some (.single value.position value, taken)) := by
  have missed : Run .expression (.operation (.reference .value)) (tokens.drop taken)
      (notesAt 0 [(.expression, .operator)]) none :=
    .operationMissed (look_operator_none next)
  have whole : Run .expression (definition .expression) _ _ _ :=
    .map (.sequence (.reference run) (.optionalMissed missed))
  rwa [notesAt_shift, further_some, further_some, Nat.zero_add, Nat.add_zero] at whole

/-- What an expression notes about the token behind it, when that cannot continue it. -/
theorem expression_far
    (run : Run .expression (definition .expression) tokens misses (some (expression, taken)))
    (next : EndsExpression expression (tokens.drop taken).head?) :
    farFrom taken misses = notesAt taken (expressionWishes expression) := by
  rcases expression_cases run with
    ⟨value, front, behind, inner, _, rfl, _⟩ |
    ⟨left, right, operator, front, behind, before, count, more, first, read, second, rfl, rfl, rfl⟩
  · rw [(run.unique (expression_of_single inner (next.operator rfl))).1, farFrom_append,
      value_far inner next.call, expressionWishes, notesAt_append]
    congr 1
    simp [farFrom, notesAt, Expression.isSingle]
  · have leftBound := le_of_farFrom (value_far first fun _ => isSymbol_of_look read)
    have progress := second.progress rfl rfl
    have behindNext : right.isName = true →
        ∀ token ∈ (((tokens.drop before).drop count).drop more).head?,
          token.isSymbol '(' = false := by
      rw [List.drop_drop, List.drop_drop]
      exact next.call
    rw [farFrom_append, farFrom_shift, farFrom_shift, value_far second behindNext, notesAt_shift,
      notesAt_shift, farFrom_eq_nil fun miss member => by
        have := leftBound miss member
        omega]
    simp [expressionWishes, Expression.last, Expression.isSingle]

/-- An expression that is all that some tokens write is read again where they go on with a token
that cannot continue it. -/
theorem expression_again
    (run : Run .expression (definition .expression) tokens misses
      (some (expression, tokens.length)))
    (next : EndsExpression expression rest.head?) :
    ∃ later, Run .expression (definition .expression) (tokens ++ rest) later
      (some (expression, tokens.length)) := by
  rcases expression_cases run with
    ⟨value, front, behind, inner, _, rfl, _⟩ |
    ⟨left, right, operator, front, behind, before, count, more, first, read, second, rfl, _, total⟩
  · obtain ⟨later, again⟩ := value_again inner next.call
    refine ⟨_, expression_of_single again ?_⟩
    rw [List.drop_left]
    exact next.operator rfl
  · have leftBound := le_of_farFrom (value_far first fun _ => isSymbol_of_look read)
    have progress := second.progress rfl rfl
    have within : Within (before + 1) front (some (left, before)) :=
      ⟨fun miss member => Nat.lt_succ_of_le (leftBound miss member),
        by rintro _ _ ⟨⟩; exact Nat.le_succ _⟩
    have leftAgain : Run .value (definition .value) (tokens ++ rest) front (some (left, before)) :=
      first.steady within (List.take_append_of_le_length (by omega))
    have length : ((tokens.drop before).drop count).length = more := by
      rw [List.drop_drop, List.length_drop]
      omega
    rw [← length] at second
    obtain ⟨later, rightAgain⟩ := value_again second next.call
    have readAgain : Recognizer.operator.look ((tokens ++ rest).drop before) =
        some (operator, count) := by
      refine look_operator_congr read ?_
      rw [List.drop_append_of_le_length (by omega),
        List.take_append_of_le_length (by rw [List.length_drop]; omega)]
    rw [length, ← List.drop_append_of_le_length (by rw [List.length_drop]; omega),
      ← List.drop_append_of_le_length (by omega)] at rightAgain
    have operated : Run .expression (.operation (.reference .value)) _ _ _ :=
      .operation rfl readAgain (.refer .value rightAgain)
    have whole : Run .expression (definition .expression) (tokens ++ rest) _ _ :=
      .map (.sequence (.reference leftAgain) (.optional operated))
    rw [further_some, further_some, Nat.zero_add] at whole
    rw [total]
    exact ⟨_, whole⟩

end Expressions

/-! ## Lists of arguments -/

/-- Some tokens write expressions with commas between them, and this is the last one.  Each of the
expressions is all that the rule for expressions makes of its own tokens. -/
inductive WritesArguments : List Token → Expression → Prop
  | last {tokens : List Token} {expression : Expression}
      (reads : (Grammar.expression tokens).found = some (expression, tokens.length)) :
      WritesArguments tokens expression
  | more {tokens others : List Token} {expression last : Expression} {comma : Token}
      (reads : (Grammar.expression tokens).found = some (expression, tokens.length))
      (separates : comma.isSymbol ',' = true) (rest : WritesArguments others last) :
      WritesArguments (tokens ++ comma :: others) last

/-- What is looked for behind an argument list that is not finished. -/
def argumentWishes (last : Expression) : List (RuleName × Expectation) :=
  expressionWishes last ++ [(.call, .mark ','), (.call, .mark ')')]

/-- A token that a list of arguments cannot go on with. -/
structure EndsArguments (last : Expression) (next : Token) : Prop where
  expression : EndsExpression last (some next)
  comma : next.isSymbol ',' = false
  parenthesis : next.isSymbol ')' = false

section Arguments

variable {tokens rest : List Token} {next : Token} {last : Expression}

theorem run_of_reads {expression : Expression} {count : Nat}
    (reads : (Grammar.expression tokens).found = some (expression, count)) :
    ∃ misses,
      Run .expression (definition .expression) tokens misses (some (expression, count)) := by
  have run := Phrase.run .expression (definition_wellFormed Nonterminal.expression) tokens
  have rule : Grammar.expression = (definition .expression).rule .expression :=
    rule_eq Nonterminal.expression
  rw [← rule, reads] at run
  exact ⟨_, run⟩

theorem EndsExpression.of_mark {expression : Expression} {token : Token}
    {character : Char} (mark : token.isSymbol character = true) (other : character ≠ '(')
    (plain : Operator.ofSpelling? (String.singleton character) = none) :
    EndsExpression expression (some token) := by
  constructor
  · rintro _ _ ⟨⟩
    exact isSymbol_of_ne mark other
  · rintro _ _ ⟨⟩
    simp [isOperator, (isSymbol_iff.mp mark).2, plain]

/-- Values with commas between them, behind one more comma. -/
theorem many_behind_comma {name : RuleName} {body : Phrase α} {misses : List Miss} {first : α}
    {items : List α} {taken : Nat} {comma : Token} (separates : comma.isSymbol ',' = true)
    (run : Run name (.sequence body (.many (behind (.mark ',') body))) tokens misses
      (some ((first, items), taken))) :
    Run name (.many (behind (.mark ',') body)) (comma :: tokens) (misses.map (Miss.shift 1))
      (some (first :: items, 1 + taken)) := by
  obtain ⟨_, _, front, later, before, after, inner, others, same, rfl, rfl⟩ := run.of_sequence
  cases same
  have step : Run name (behind (.mark ',') body) (comma :: tokens) _ (some (first, 1 + before)) :=
    .make_behind (read_mark_iff.mpr separates) inner
  have moved : Run name (.many (behind (.mark ',') body)) ((comma :: tokens).drop (1 + before))
      later (some (items, after)) := by
    rwa [Nat.add_comm, List.drop_succ_cons]
  have whole := Run.many rfl step moved
  have shifts : Miss.shift (1 + before) = Miss.shift 1 ∘ Miss.shift before := by
    funext miss
    simp
  rw [List.map_append, List.map_map, ← shifts, ← Nat.add_assoc]
  exact whole

/-- Arguments are read in front of a token that they cannot go on with, and then a comma is wanted
there. -/
theorem run_of_arguments (rest : List Token) (writes : WritesArguments tokens last)
    (ends : EndsArguments last next) :
    ∃ arguments misses, Run .call
      (.sequence (.reference .expression) (.many (behind (.mark ',') (.reference .expression))))
      (tokens ++ next :: rest) misses (some (arguments, tokens.length)) ∧
      farFrom tokens.length misses =
        notesAt tokens.length (expressionWishes last ++ [(.call, .mark ',')]) := by
  induction writes with
  | @last tokens expression reads =>
      obtain ⟨_, alone⟩ := run_of_reads reads
      have nextEnds : EndsExpression expression (next :: rest).head? := ends.expression
      obtain ⟨front, run⟩ := expression_again alone nextEnds
      have far := expression_far run (by rw [List.drop_left]; exact ends.expression)
      have stop : Run .call (behind (.mark ',') (.reference .expression))
          ((tokens ++ next :: rest).drop tokens.length) (notesAt 0 [(.call, .mark ',')]) none := by
        rw [List.drop_left]
        exact .make_behind_missed (unread_mark (by rintro _ ⟨⟩; exact ends.comma))
      have whole := Run.sequence (Run.refer .expression run) (Run.manyEnd stop)
      refine ⟨_, _, whole, ?_⟩
      rw [notesAt_shift, farFrom_append, far, notesAt_append]
      congr 1
      simp [farFrom, notesAt]
  | @more tokens others expression last comma reads separates _ ih =>
      obtain ⟨_, alone⟩ := run_of_reads reads
      obtain ⟨⟨second, items⟩, later, following, far⟩ := ih ends
      have mark : EndsExpression expression (comma :: (others ++ next :: rest)).head? :=
        .of_mark separates (by decide) (by decide)
      obtain ⟨front, run⟩ := expression_again alone mark
      have bound := le_of_farFrom (expression_far run (by rw [List.drop_left]; exact mark))
      have rows := many_behind_comma separates following
      have reached : (tokens ++ comma :: (others ++ next :: rest)).drop tokens.length =
          comma :: (others ++ next :: rest) := List.drop_left
      rw [← reached] at rows
      have whole := Run.sequence (Run.refer .expression run) rows
      have length : (tokens ++ comma :: others).length = tokens.length + (1 + others.length) := by
        simp only [List.length_append, List.length_cons]
        omega
      rw [List.append_assoc, List.cons_append, length]
      refine ⟨_, _, whole, ?_⟩
      rw [farFrom_append, farFrom_shift, farFrom_shift, far, notesAt_shift, notesAt_shift,
        farFrom_eq_nil fun miss member => by
          have := bound miss member
          omega, List.nil_append]

/-- Where the tokens of a list of arguments cannot go on, neither the comma nor the parenthesis that
the call wants is there. -/
theorem call_of_arguments {callee opening : Token} (kind : callee.kind = .identifier)
    (opens : opening.isSymbol '(' = true) (writes : WritesArguments tokens last)
    (ends : EndsArguments last next) :
    ∃ notes,
      Run .call (definition .call) (callee :: opening :: (tokens ++ next :: rest)) notes none ∧
      farFrom (2 + tokens.length) notes = notesAt (2 + tokens.length) (argumentWishes last) := by
  obtain ⟨arguments, misses, run, far⟩ := run_of_arguments rest writes ends
  have name : Terminal.identifier.read callee = some callee.lexeme := by
    simp [Terminal.read, kind]
  have list : Run .call (separated (.reference .expression)) (tokens ++ next :: rest) misses
      (some (arguments.1 :: arguments.2, 0 + (0 + tokens.length))) :=
    .map (.optional (.map run))
  rw [Nat.zero_add, Nat.zero_add] at list
  have closing : Run .call (.token (.mark ')')) ((tokens ++ next :: rest).drop tokens.length)
      (notesAt 0 [(.call, .mark ')')]) none := by
    rw [List.drop_left]
    exact .tokenMissed (unread_mark (by rintro _ ⟨⟩; exact ends.parenthesis))
  have whole : Run .call (definition .call) _ _ _ := .located rfl (.sequence (.token name)
    (.make_behind (read_mark_iff.mpr opens) (.map (.sequence list closing))))
  have wanted : farFrom tokens.length (misses ++ (notesAt 0 [(.call, .mark ')')]).map
      (Miss.shift tokens.length)) = notesAt tokens.length (argumentWishes last) := by
    rw [farFrom_append, far, notesAt_shift]
    simp [farFrom, notesAt, argumentWishes]
  refine ⟨_, whole, ?_⟩
  rw [List.nil_append, show 2 + tokens.length = 1 + (1 + tokens.length) by omega, farFrom_shift,
    farFrom_shift, wanted, notesAt_shift, notesAt_shift]

end Arguments

end Peg

end CollectionSchema
