import CollectionSchema.Proofs.Peg.Echo
import CollectionSchema.Proofs.Peg.Argument
import CollectionSchema.Proofs.Peg.SealedItem

/-!
# What a program reports of a failed call

When a call fails where the next statement of a function is read, the statement, the
function and the declarations fail with it.  All that is noted on the way from some
place inside the call on are the notes of the call, and repetitions of them
(`Reports`): what was read in front of the call is sealed, and what is tried instead
of the function, or of the collection around it, does not come as far.
-/

set_option autoImplicit false

namespace CollectionSchema.Peg

open Phrase (behind before between braced separated)

variable {α β : Type} {wishes : List (RuleName × Expectation)} {place : Nat}

/-! ## Reports -/

/-- From a place on there are first the notes of some wishes, and then only repetitions of them. -/
def Reports (wishes : List (RuleName × Expectation)) (place : Nat) (misses : List Miss) : Prop :=
  ∃ others, farFrom place misses = notesAt place wishes ++ others ∧
    ∀ miss ∈ others, miss ∈ notesAt place wishes

/-- Echoes are a report if there are any. -/
theorem Echoes.reports {misses : List Miss} (echoes : Echoes wishes place misses)
    (noted : ∃ miss ∈ misses, place ≤ miss.position) : Reports wishes place misses := by
  rcases echoes with none | reports
  · obtain ⟨miss, member, far⟩ := noted
    have there : miss ∈ farFrom place misses := List.mem_filter.mpr ⟨member, by simpa using far⟩
    rw [none] at there
    cases there
  · exact reports

namespace Reports

variable {misses front later : List Miss}

theorem append (reports : Reports wishes place misses) (echoes : Echoes wishes place later) :
    Reports wishes place (misses ++ later) := by
  obtain ⟨others, noted, known⟩ := reports
  rcases echoes with none | ⟨more, same, repeated⟩
  · exact ⟨others, by rw [farFrom_append, noted, none, List.append_nil], known⟩
  · refine ⟨others ++ (notesAt place wishes ++ more), ?_, ?_⟩
    · rw [farFrom_append, noted, same, List.append_assoc]
    · intro miss member
      rcases List.mem_append.mp member with member | member
      · exact known miss member
      · exact (List.mem_append.mp member).elim id (repeated miss)

/-- Notes in front of the place add nothing. -/
theorem after (reports : Reports wishes place misses)
    (before : ∀ miss ∈ front, miss.position < place) :
    Reports wishes place (front ++ misses) := by
  rwa [Reports, farFrom_append, farFrom_eq_nil before, List.nil_append]

theorem shift (reports : Reports wishes place misses) (taken : Nat) :
    Reports wishes (taken + place) (misses.map (Miss.shift taken)) := by
  obtain ⟨others, noted, known⟩ := reports
  refine ⟨others.map (Miss.shift taken), ?_, ?_⟩
  · rw [farFrom_shift, noted, List.map_append, notesAt_shift]
  · intro miss member
    obtain ⟨inner, inside, rfl⟩ := List.mem_map.mp member
    rw [← notesAt_shift]
    exact List.mem_map_of_mem (known inner inside)

/-- Behind a part that was not looked past, a report stays what it is. -/
theorem behind {taken : Nat} (reports : Reports wishes place later)
    (bound : ∀ miss ∈ front, miss.position ≤ taken) (positive : 0 < place) :
    Reports wishes (taken + place) (front ++ later.map (Miss.shift taken)) :=
  (reports.shift taken).after fun miss member => by
    have := bound miss member
    omega

end Reports

/-! ## The end of a repetition -/

/-- A repetition ends where its body fails.  If its items are sealed, all other notes lie in front
of that place. -/
theorem Run.many_end {name : RuleName} {body : Phrase α} {items : List α} :
    ∀ {tokens : List Token} {misses : List Miss} {taken : Nat},
      Run name (.many body) tokens misses (some (items, taken)) →
      ∃ front again, misses = front ++ again.map (Miss.shift taken) ∧
        Run name body (tokens.drop taken) again none ∧
        ((∀ {tokens : List Token} {misses : List Miss} {item : α} {taken : Nat},
            Run name body tokens misses (some (item, taken)) →
              ∀ miss ∈ misses, miss.position < taken) →
          ∀ miss ∈ front, miss.position < taken) := by
  induction items with
  | nil =>
      intro tokens misses taken run
      rcases run.tried with ⟨inner, matched⟩ | ⟨_, _, _, _, _, _, _, _, _, matched⟩ <;>
        cases matched
      exact ⟨[], misses, by rw [Miss.map_shift_zero, List.nil_append], inner,
        fun _ => List.forall_mem_nil _⟩
  | cons item items ih =>
      intro tokens misses taken run
      rcases run.tried with
        ⟨_, matched⟩ | ⟨_, _, first, more, inFront, _, inner, others, rfl, matched⟩ <;>
        cases matched
      obtain ⟨front, again, rfl, fails, bound⟩ := ih others
      rw [List.drop_drop] at fails
      refine ⟨inFront ++ front.map (Miss.shift first), again, ?_, fails, fun each => ?_⟩
      · simp only [List.map_append, List.map_map, List.append_assoc]
        congr 3
        funext miss
        simp
      · intro miss member
        rcases List.mem_append.mp member with member | member
        · exact Nat.lt_of_lt_of_le (each inner miss member) (Nat.le_add_right first more)
        · exact shifted_lt (bound each) miss member

/-! ## A statement that should be a call -/

/-- Where a call fails, a statement fails with it and notes all that the call notes. -/
theorem statement_at_call {callee opening : Token} {rest : List Token} {notes : List Miss}
    (opens : OpensCall callee opening)
    (fails : Run .call (definition .call) (callee :: opening :: rest) notes none) :
    ∃ misses, Run .statement (definition .statement) (callee :: opening :: rest) misses none ∧
      ∀ miss ∈ notes, miss ∈ misses := by
  have noWord : ∀ spelling, isContextualKeyword spelling = true →
      (callee :: opening :: rest).head?.bind (Terminal.word spelling).read = none := by
    intro spelling keyword
    simp [Terminal.read, opens.isWord keyword]
  obtain ⟨front, _, value⟩ := value_of_name opens.kind (opens.isWord (by decide))
    (opens.isWord (by decide)) fails
  have noOperator : ∀ token ∈ (opening :: rest).head?, isOperator token = false := by
    rintro _ ⟨⟩
    exact Phrase.isOperator_of_parenthesis opens.mark
  have expression := expression_of_single value noOperator
  have compound : Run .statement (definition .compound) (callee :: opening :: rest) _ none :=
    .choiceSecond
      (.refer .conditional (.located rfl (.make_behind_missed (noWord "if" (by decide)))))
      (.choiceSecond
        (.refer .whileLoop (.located rfl (.make_behind_missed (noWord "while" (by decide)))))
        (.refer .forLoop (.located rfl (.make_behind_missed (noWord "for" (by decide))))))
  have small : Run .statement (definition .small) (callee :: opening :: rest) _ _ :=
    .choiceSecond (.map (.tokenMissed (noWord "break" (by decide))))
      (.choiceSecond (.map (.make_behind_missed (noWord "return" (by decide))))
        (.choiceSecond (.map (.make_behind_missed (noWord "throw" (by decide))))
          (.choiceSecond
            (.map (.refer .letBinding
              (.located rfl (.make_behind_missed (noWord "let" (by decide))))))
            (.map (.refer .expression expression)))))
  have noSemicolon : ∀ token ∈ (opening :: rest).head?, token.isSymbol ';' = false := by
    rintro _ ⟨⟩
    exact isSymbol_of_ne opens.mark (by decide)
  refine ⟨_, .choiceSecond (.refer .compound compound) (.map (.refer .simple
    (.located rfl (.map (.sequence (.refer .small small) (.tokenMissed
      (unread_mark noSemicolon))))))), fun miss member => ?_⟩
  simp [member]

/-! ## From statements to functions -/

section Functions

variable {far : Nat} {tokens : List Token} {misses : List Miss} {taken : Nat}

/-- A call that fails with a report. -/
structure BrokenCall (wishes : List (RuleName × Expectation)) (place : Nat) (tokens : List Token) :
    Prop where
  opens : ∃ callee opening rest, tokens = callee :: opening :: rest ∧ OpensCall callee opening
  fails : ∃ notes, Run .call (definition .call) tokens notes none ∧ Reports wishes place notes
  inside : 2 ≤ place
  wished : wishes ≠ []

theorem BrokenCall.failed (broken : BrokenCall wishes place tokens) :
    FailedCall wishes place tokens := by
  obtain ⟨notes, run, reports⟩ := broken.fails
  exact ⟨broken.opens, ⟨notes, run, .inr reports⟩, broken.inside⟩

/-- Statements that end where a call is broken report it. -/
theorem statements_report {name : RuleName} {statements : List Statement}
    (run : Run name (.many (.reference .statement)) tokens misses (some (statements, taken)))
    (broken : BrokenCall wishes far (tokens.drop taken)) : Reports wishes (taken + far) misses := by
  have calm : (Phrase.many (.reference .statement)).Calm true := ⟨trivial, nofun⟩
  refine (run.echoes rfl calm nofun broken.failed).echoes.reports ?_
  obtain ⟨callee, opening, rest, same, opens⟩ := broken.opens
  obtain ⟨notes, fails, others, noted, _⟩ := broken.fails
  obtain ⟨front, again, rfl, ends, _⟩ := run.many_end
  rw [same] at ends fails
  obtain ⟨whole, statement, contains⟩ := statement_at_call opens fails
  obtain ⟨rfl, _⟩ := Run.unique ends.tried statement
  obtain ⟨wish, member⟩ := List.exists_mem_of_ne_nil wishes broken.wished
  have there : (⟨far, false, wish.1, wish.2⟩ : Miss) ∈ farFrom far notes := by
    rw [noted]
    exact List.mem_append_left _ (List.mem_map_of_mem member)
  exact ⟨_, List.mem_append_right _ (List.mem_map_of_mem
    (contains _ (List.mem_filter.mp there).1)), Nat.le_refl _⟩

/-- The phrase for a function as far as the brace that opens its body. -/
def functionHead : Phrase (List Decorator × String × List Field × Option SchemaType × Unit) :=
  .sequence (.many (.reference .decorator))
    (.sequence functionName
      (.sequence (between '(' ')' (separated (.reference .field)))
        (.sequence (.optional (behind (.mark ':') (.reference .type))) (.token (.mark '\x7b')))))

/-- Where a function stands in some tokens: behind so many tokens of decorators, and with its name
in front of so many others. -/
structure FunctionStands (tokens : List Token) (before total : Nat) : Prop where
  decorated : ∃ decorators front,
    Run .function (.many (.reference .decorator)) tokens front (some (decorators, before)) ∧
      ∀ miss ∈ front, miss.position ≤ before
  named : FunctionNamed (tokens.drop before)
  inside : before + 2 ≤ total

/-- Braces that are opened and not closed fail with the report of what stands in them. -/
theorem braces_report {name : RuleName} {body : Phrase α} {items : List α} {more : Nat}
    {first : Token} {rest : List Token} (opening : first.isSymbol '\x7b' = true)
    (run : Run name (.many body) rest misses (some (items, more)))
    (reports : Reports wishes place misses) (further : more < place)
    (unclosed : ∀ token ∈ (rest.drop more).head?, token.isSymbol '\x7d' = false) :
    ∃ notes, Run name (braced body) (first :: rest) notes none ∧
      Reports wishes (1 + place) notes := by
  have inner : Run name (before (.many body) (.mark '\x7d')) rest _ none :=
    .map (.sequence run (.tokenMissed (unread_mark unclosed)))
  refine ⟨_, .make_behind (read_mark_iff.mpr opening) inner, ?_⟩
  refine (reports.append (.silent ?_)).shift 1
  intro miss member
  obtain ⟨noted, inside, rfl⟩ := List.mem_map.mp member
  rw [Miss.shift_position, Terminal.misses_position _ _ _ noted inside]
  exact further

/-- A function fails behind its head as its statements do. -/
theorem function_reports
    {head : List Decorator × String × List Field × Option SchemaType × Unit}
    {statements : List Statement} {more : Nat} {front later : List Miss}
    (start : Run .function functionHead tokens front (some (head, taken)))
    (body : Run .function (.many (.reference .statement)) (tokens.drop taken) later
      (some (statements, more)))
    (broken : BrokenCall wishes far ((tokens.drop taken).drop more)) :
    (∃ notes, Run .function (definition .function) tokens notes none ∧
      Reports wishes (taken + (more + far)) notes) ∧
    ∃ before, FunctionStands tokens before taken := by
  have reports := statements_report body broken
  obtain ⟨_, _, _, _, decorated, _, decorators, behindDecorators, rfl, rfl, rfl⟩ :=
    start.of_sequence
  obtain ⟨_, _, _, _, named, _, name, behindName, rfl, rfl, rfl⟩ := behindDecorators.of_sequence
  obtain ⟨_, _, _, _, enclosed, _, parameters, behindParameters, rfl, rfl, rfl⟩ :=
    behindName.of_sequence
  obtain ⟨_, _, _, _, typed, _, result, brace, rfl, rfl, rfl⟩ := behindParameters.of_sequence
  obtain ⟨rfl, rfl, first, rest, same, read⟩ := brace.of_token
  have opening := read_mark_iff.mp read
  have braceNext : ∃ token ∈
      ((((tokens.drop decorated).drop named).drop enclosed).drop typed).head?,
      token.isSymbol '\x7b' = true := by
    rw [same]
    exact ⟨first, rfl, opening⟩
  obtain ⟨nameBound, names⟩ := name_le name (exists_head_of_between parameters)
  have stands : FunctionNamed (tokens.drop decorated) :=
    .of_run name (exists_head_of_between parameters)
  have decoratorBound := decorators_le decorators names.word
  have parameterBound := parameters.between_le Brackets.balanced_parentheses rfl
  have resultBound := result_le result braceNext
  have nameProgress := name.progress rfl rfl
  have parameterProgress := parameters.progress rfl rfl
  refine ⟨?_, decorated, ⟨_, _, decorators, decoratorBound⟩, stands, by omega⟩
  -- The tokens behind the head are those behind the brace.
  have behindBrace : tokens.drop (decorated + (named + (enclosed + (typed + 1)))) = rest := by
    rw [← List.drop_drop, ← List.drop_drop, ← List.drop_drop, ← List.drop_drop, same,
      List.drop_one, List.tail_cons]
  rw [behindBrace] at body broken
  obtain ⟨callee, calling, others, here, opens⟩ := broken.opens
  have inside := broken.inside
  obtain ⟨notes, statements, reports⟩ := braces_report opening body reports (by omega) (by
    rw [here]
    rintro _ ⟨⟩
    exact opens.isSymbol '\x7d')
  rw [← same] at statements
  have whole : Run .function (definition .function) tokens _ none :=
    .located rfl (.sequence decorators (.sequence name (.sequence parameters
      (.sequence result statements))))
  refine ⟨_, whole, ?_⟩
  have total : decorated + (named + (enclosed + (typed + 1))) + (more + far) =
      decorated + (named + (enclosed + (typed + (1 + (more + far))))) := by omega
  rw [total]
  refine .behind (.behind (.behind (.behind reports resultBound (by omega)) ?_ (by omega)) nameBound
    (by omega)) decoratorBound (by omega)
  exact fun miss member => Nat.le_of_lt (parameterBound miss member)

end Functions

/-! ## From functions to declarations -/

namespace FunctionStands

variable {tokens : List Token} {before total : Nat}

theorem mono {more : Nat} (stands : FunctionStands tokens before total) (le : total ≤ more) :
    FunctionStands tokens before more :=
  ⟨stands.decorated, stands.named, Nat.le_trans stands.inside le⟩

/-- A function begins with a decorator or a word. -/
theorem head (stands : FunctionStands tokens before total) :
    ∃ first ∈ tokens.head?, first.isSymbol '@' = true ∨ first.kind = .identifier := by
  obtain ⟨decorators, front, decorated, _⟩ := stands.decorated
  obtain ⟨name, _, _, same, kind, _⟩ := stands.named.exists_cons
  rcases tokens with _ | ⟨first, rest⟩
  · simp at same
  refine ⟨first, rfl, ?_⟩
  rcases at_ : first.isSymbol '@' with _ | _
  · have holds := decorated.forecast
    rw [Phrase.forecast, List.head?_cons, forecast_decorator (by
      rintro _ ⟨⟩
      exact at_)] at holds
    obtain ⟨_, matched⟩ := holds
    cases matched
    rw [List.drop_zero] at same
    cases same
    exact .inr kind
  · exact .inl rfl

theorem head_isSymbol (stands : FunctionStands tokens before total) {character : Char}
    (other : character ≠ '@') : ∀ token ∈ tokens.head?, token.isSymbol character = false := by
  intro token here
  obtain ⟨first, there, mark | kind⟩ := stands.head <;>
    obtain rfl : first = token := Option.some.inj (there.symm.trans here)
  · exact isSymbol_of_ne mark other.symm
  · exact isSymbol_of_kind (by rw [kind]; decide) character

end FunctionStands

section Declarations

variable {tokens : List Token} {misses : List Miss} {notes : List Miss} {before taken : Nat}

/-- What else an item could be is given up before its function fails. -/
theorem item_reports {name : RuleName}
    (run : Run name (.reference .item) tokens misses none)
    (function : Run .function (definition .function) tokens notes none)
    (reports : Reports wishes place notes) (stands : FunctionStands tokens before place) :
    Reports wishes place misses := by
  obtain ⟨_, _, decorated, bound⟩ := stands.decorated
  have inside := stands.inside
  rcases Run.tried run.tried with ⟨matched, _⟩ | ⟨_, _, field, others, rfl⟩
  · cases matched
  rcases others.tried with ⟨matched, _⟩ | ⟨_, _, tried, index, rfl⟩
  · cases matched
  obtain ⟨_, fieldBound⟩ := before_missed field fun inner =>
    field_at_function inner.tried decorated bound stands.named
  obtain ⟨_, indexBound⟩ := before_missed index fun inner =>
    index_at_function inner.tried decorated stands.named
  obtain ⟨_, again, _⟩ := tried.tried
  obtain ⟨rfl, _⟩ := Run.unique again.tried function
  refine .after (.append reports (.silent fun miss member => ?_)) fun miss member => ?_
  · have := indexBound miss member
    omega
  · have := fieldBound miss member
    omega

/-- What else a declaration could be is given up before its function fails. -/
theorem declaration_reports {name : RuleName}
    (run : Run name (.reference .declaration) tokens misses none)
    (function : Run .function (definition .function) tokens notes none)
    (reports : Reports wishes place notes) (stands : FunctionStands tokens before place) :
    Reports wishes place misses := by
  obtain ⟨_, _, decorated, bound⟩ := stands.decorated
  have inside := stands.inside
  rcases Run.tried run.tried with ⟨matched, _⟩ | ⟨_, _, collection, tried, rfl⟩
  · cases matched
  obtain ⟨_ | _, inCollection, matched⟩ := collection.tried
  case some => cases matched
  obtain ⟨_, again, _⟩ := tried.tried
  obtain ⟨rfl, _⟩ := Run.unique again.tried function
  refine reports.after fun miss member => ?_
  have := collection_missed inCollection.tried decorated bound stands.named.names miss member
  omega

/-- The phrase for a collection as far as the brace that opens it. -/
def collectionHead : Phrase (List Decorator × String × Unit) :=
  .sequence (.many (.reference .decorator))
    (behind (.word "collection") (.sequence (.token .identifier) (.token (.mark '\x7b'))))

/-- A collection fails behind its head as the function in it does, and no function stands in the
place of the collection. -/
theorem collection_reports {name : RuleName} {head : List Decorator × String × Unit}
    {items : List Item} {more : Nat} {front later : List Miss}
    (run : Run name (.reference .declaration) tokens misses none)
    (start : Run .collection collectionHead tokens front (some (head, taken)))
    (body : Run .collection (.many (.reference .item)) (tokens.drop taken) later
      (some (items, more)))
    (function : Run .function (definition .function) ((tokens.drop taken).drop more) notes none)
    (reports : Reports wishes place notes)
    (stands : FunctionStands ((tokens.drop taken).drop more) before place) :
    Reports wishes (taken + (more + place)) misses := by
  have inside := stands.inside
  obtain ⟨_, again, rfl, fails, bound⟩ := body.many_end
  have inBraces := (item_reports fails function reports stands).behind
    (fun miss member => Nat.le_of_lt (bound (fun item => item_lt item.tried) miss member))
    (by omega)
  obtain ⟨_, _, _, _, decorated, _, decorators, introduced, rfl, rfl, rfl⟩ := start.of_sequence
  obtain ⟨word, _, _, _, behindDecorators, is, named, rfl, rfl⟩ := introduced.of_behind
  obtain ⟨_, _, _, _, _, _, name, brace, rfl, rfl, rfl⟩ := named.of_sequence
  obtain ⟨rfl, rfl, called, _, rfl, read⟩ := name.of_token
  obtain ⟨rfl, rfl, first, rest, same, mark⟩ := brace.of_token
  rw [List.drop_one, List.tail_cons] at same
  subst same
  have kind := kind_of_read_identifier read
  have decoratorBound := decorators_le decorators (by
    rw [behindDecorators]
    rintro _ ⟨⟩
    exact kind_of_isWord (read_word_iff.mp is))
  -- The tokens behind the head are those behind the brace.
  have behindBrace : tokens.drop (decorated + (1 + (1 + 1))) = rest := by
    rw [← List.drop_drop, behindDecorators]
    rfl
  rw [behindBrace] at body stands
  obtain ⟨_, braces, inside⟩ := braces_report (read_mark_iff.mp mark) body inBraces (by omega)
    (stands.head_isSymbol (by decide))
  have parts : Run .collection (behind (.word "collection")
      (.sequence (.token .identifier) (braced (.reference .item))))
      (word :: called :: first :: rest) _ none := .make_behind is (.sequence (.token read) braces)
  rw [← behindDecorators] at parts
  have whole : Run .collection (definition .collection) tokens _ none :=
    .located rfl (.sequence decorators parts)
  rcases Run.tried run.tried with ⟨matched, _⟩ | ⟨_, _, collection, function, rfl⟩
  · cases matched
  obtain ⟨_ | _, again, matched⟩ := collection.tried
  case some => cases matched
  obtain ⟨rfl, _⟩ := Run.unique again.tried whole
  obtain ⟨_, instead, _⟩ := function.tried
  obtain ⟨_, functionBound⟩ := function_at_collection instead.tried decorators decoratorBound
    behindDecorators (read_word_iff.mp is) kind
  have total : decorated + (1 + (1 + 1)) + (more + place) =
      decorated + (1 + (1 + (1 + (more + place)))) := by omega
  rw [total]
  refine .append (.behind ((inside.shift 1).shift 1) decoratorBound (by omega)) (.silent ?_)
  intro miss member
  have := functionBound miss member
  omega

/-- Declarations end where a declaration fails, and report what it reports. -/
theorem declarations_report {declared : List Declaration}
    (run : Run .program declarations tokens misses (some (declared, taken)))
    (positive : 0 < place)
    (reports : ∀ {again : List Miss}, Run .program (.reference .declaration) (tokens.drop taken)
      again none → Reports wishes place again) :
    Reports wishes (taken + place) misses := by
  obtain ⟨_, again, rfl, fails, bound⟩ := Run.many_end run
  exact (reports fails).behind (fun miss member =>
    Nat.le_of_lt (bound (fun declaration => declaration_lt declaration.tried) miss member)) positive

end Declarations

end CollectionSchema.Peg
