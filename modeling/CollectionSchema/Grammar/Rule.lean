import CollectionSchema.Grammar.Miss

/-!
# Rules of a grammar

A rule looks at the tokens in front of it.  It either makes a value of some of
them and says how many it took, or it does not match.  In both cases it hands
over the notes of everything that failed on the way, with positions counted from
its own first token.  A rule has no other effect: when it does not match, the
next alternative starts from the same token by itself.

Alternatives are ordered, and the first one that matches is final.  A rule that
refers to itself is made with `Rule.fix`, whose depth the number of tokens bounds.
-/

set_option autoImplicit false

namespace CollectionSchema

/-- What a rule answers: the notes that were made, and a value with the number of tokens that were
taken for it when the rule matches. -/
structure Reply (α : Type) where
  misses : List Miss
  found : Option (α × Nat)

/-- A rule of the grammar: it reads from the front of a list of tokens. -/
abbrev Rule (α : Type) := List Token → Reply α

namespace Rule

variable {α β : Type}

/-! ## Sequences -/

/-- Matches without taking a token. -/
def succeed (value : α) : Rule α := fun _ => ⟨[], some (value, 0)⟩

/-- Matches one rule and then, behind the tokens that it took, the rule that its value selects. -/
def andThen (first : Rule α) (second : α → Rule β) : Rule β := fun tokens =>
  match first tokens with
  | ⟨misses, none⟩ => ⟨misses, none⟩
  | ⟨misses, some (value, taken)⟩ =>
    let later := second value (tokens.drop taken)
    ⟨misses ++ later.misses.map (Miss.shift taken),
      later.found.map fun result => (result.1, taken + result.2)⟩

instance : Monad Rule where
  pure := succeed
  bind := andThen

/-! ## Single tokens -/

/-- The place of the next token. -/
def here : Rule Position := fun tokens =>
  ⟨[], some ((tokens.head?.map Token.position).getD Position.start, 0)⟩

/-- Takes the next token if a value can be made of it, and notes what was wanted otherwise. -/
def accept (rule : RuleName) (expected : List Expectation) (read : Token → Option α) : Rule α :=
  fun tokens =>
    match tokens.head?.bind read with
    | some value => ⟨[], some (value, 1)⟩
    | none => ⟨expected.map fun wanted => ⟨0, false, rule, wanted⟩, none⟩

/-- Takes a punctuation mark. -/
def mark (rule : RuleName) (character : Char) : Rule Unit :=
  accept rule [.mark character] fun token => if token.isSymbol character then some () else none

/-- Takes a word that acts as a keyword here. -/
def word (rule : RuleName) (spelling : String) : Rule Unit :=
  accept rule [.word spelling] fun token => if token.isWord spelling then some () else none

/-- Takes any identifier. -/
def identifier (rule : RuleName) : Rule String :=
  accept rule [.identifier] fun token =>
    if token.kind = .identifier then some token.lexeme else none

/-- Takes a punctuation mark if it is there, notes nothing, and says whether it was there. -/
def flag (character : Char) : Rule Bool := fun tokens =>
  match tokens with
  | token :: _ => ⟨[], some (if token.isSymbol character then (true, 1) else (false, 0))⟩
  | [] => ⟨[], some (false, 0)⟩

/-- Takes as many tokens as a look at what follows claims, and notes what was wanted when it claims
none. -/
def claim (rule : RuleName) (expected : Expectation) (look : List Token → Option (α × Nat)) :
    Rule α := fun tokens =>
  match look tokens with
  | some result => ⟨[], some result⟩
  | none => ⟨[⟨0, false, rule, expected⟩], none⟩

/-! ## Alternatives and repetition -/

/-- Matches the first of several alternatives that matches. -/
def oneOf : List (Rule α) → Rule α
  | [], _ => ⟨[], none⟩
  | first :: others, tokens =>
    match first tokens with
    | ⟨misses, some result⟩ => ⟨misses, some result⟩
    | ⟨misses, none⟩ =>
      let later := oneOf others tokens
      ⟨misses ++ later.misses, later.found⟩

/-- Matches a rule if possible. -/
def optional (rule : Rule α) : Rule (Option α) := fun tokens =>
  match rule tokens with
  | ⟨misses, some (value, taken)⟩ => ⟨misses, some (some value, taken)⟩
  | ⟨misses, none⟩ => ⟨misses, some (none, 0)⟩

/-- Matches a rule as often as possible, but at most a number of times. -/
def atMost (rule : Rule α) : Nat → Rule (List α)
  | 0 => succeed []
  | bound + 1 => fun tokens =>
    match rule tokens with
    | ⟨misses, none⟩ => ⟨misses, some ([], 0)⟩
    | ⟨misses, some (value, taken)⟩ =>
      if taken = 0 then ⟨misses, some ([value], 0)⟩
      else
        let later := atMost rule bound (tokens.drop taken)
        ⟨misses ++ later.misses.map (Miss.shift taken),
          later.found.map fun result => (value :: result.1, taken + result.2)⟩

/-- Matches a rule as often as possible; a match that takes no token is the last one. -/
def many (rule : Rule α) : Rule (List α) := fun tokens => atMost rule (tokens.length + 1) tokens

/-- Matches a rule any number of times with commas between the matches. -/
def separated (name : RuleName) (rule : Rule α) : Rule (List α) := do
  match ← optional rule with
  | none => return []
  | some first =>
    let others ← many do
      mark name ','
      rule
    return first :: others

/-- Matches a rule any number of times between braces. -/
def braced (name : RuleName) (rule : Rule α) : Rule (List α) := do
  mark name '\x7b'
  let items ← many rule
  mark name '\x7d'
  return items

/-! ## Recursion -/

/-- A rule that refers to itself, unfolded a number of times; below that it never matches. -/
def unfold (body : Rule α → Rule α) : Nat → Rule α
  | 0 => fun _ => ⟨[], none⟩
  | depth + 1 => body (unfold body depth)

/-- A rule that refers to itself.  Each reference must stand behind a token, so there can be no more
of them inside each other than there are tokens. -/
def fix (body : Rule α → Rule α) : Rule α := fun tokens => unfold body (tokens.length + 1) tokens

end Rule

end CollectionSchema
