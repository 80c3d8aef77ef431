import CollectionSchema.Proofs.Peg.Phrase

/-!
# The normative grammar of the schema language

    Program     := Declaration*
    Declaration := Collection | Function
    Collection  := Decorator* 'collection' Ident '{' Item* '}'
    Item        := Field ';' | Function | Index ';'
    Field       := Decorator* Ident '?'? ':' Type
    Index       := '@' ('index' | 'unique') '(' (IndexField (',' IndexField)*)? ')'
    IndexField  := '[' Ident ',' SortOrder ']' | Ident
    Function    := Decorator* ('function' Ident | Ident) '(' (Field (',' Field)*)? ')'
                   (':' Type)? '{' Statement* '}'
    Decorator   := '@' DecoratorName ('(' Ident ')')?
    Type        := BasicType ArraySuffix? | MapType | ObjectType | Ident
    ArraySuffix := '[' ']'
    MapType     := 'map' '<' BasicType ',' Type '>'
    ObjectType  := '{' (Field ';')* '}'
    Statement   := Compound | Simple
    Compound    := If | While | For
    Simple      := Small ';'
    Small       := 'break' | 'return' Expression | 'throw' Expression | Let | Expression
    Let         := 'let' Ident '=' Expression
    If          := 'if' '(' Expression ')' Branch? ('else' Branch)?
    Branch      := '{' Statement* '}' | Simple
    While       := 'while' '(' Expression ')' '{' Statement* '}'
    For         := 'for' '(' (Let | Expression) ';' Expression ';' Expression ')' '{' Statement* '}'
    Expression  := Value (Operator Value)?
    Value       := Number | String | ('true' | 'false') | Call | Ident | '(' Expression ')'
    Call        := Ident '(' (Expression (',' Expression)*)? ')'

Each symbol is defined by a phrase that also builds the part of the program that
the symbol stands for.  The choice is ordered: an alternative counts only where
those in front of it do not match.

Matching follows the definition of such grammars.  Since symbols refer to each
other, a match is computed with a bound on the number of steps, and a phrase
matches when it does so with some bound.
-/

set_option autoImplicit false

namespace CollectionSchema.Peg

open Phrase (behind before between braced separated)

/-! ## The definitions of the symbols -/

/-- The phrase that defines a symbol. -/
def definition : {α : Type} → Nonterminal α → Phrase α
  | _, .declaration =>
      .choice (.map .collection (.reference .collection)) (.map .function (.reference .function))
  | _, .collection =>
      .located (fun position (decorators, name, items) => ⟨position, decorators, name, items⟩)
        (.sequence (.many (.reference .decorator))
          (behind (.word "collection")
            (.sequence (.token .identifier) (braced (.reference .item)))))
  | _, .item =>
      .choice (.map .field (before (.reference .field) (.mark ';')))
        (.choice (.map .function (.reference .function))
          (.map .index (before (.reference .index) (.mark ';'))))
  | _, .field =>
      .located (fun position (decorators, name, isOptional, type) =>
          ⟨position, decorators, name, isOptional, type⟩)
        (.sequence (.many (.reference .decorator))
          (.sequence (.token .identifier)
            (.flagged '?' (behind (.mark ':') (.reference .type)))))
  | _, .index =>
      .located (fun position (plain, fields) => ⟨position, !plain, fields⟩)
        (behind (.mark '@')
          (.sequence (.token (.either "index" "unique"))
            (between '(' ')' (separated (.reference .indexField)))))
  | _, .indexField =>
      .choice
        (.located (fun position (name, order) => ⟨position, name, order⟩)
          (between '[' ']'
            (.sequence (.token .identifier) (behind (.mark ',') (.token .sortOrder)))))
        (.located (fun position name => ⟨position, name, .ascending⟩) (.token .identifier))
  | _, .function =>
      .located (fun position (decorators, name, parameters, result, statements) =>
          ⟨position, decorators, name, parameters, result, statements⟩)
        (.sequence (.many (.reference .decorator))
          (.sequence
            (.choice (behind (.word "function") (.token .identifier)) (.token .identifier))
            (.sequence (between '(' ')' (separated (.reference .field)))
              (.sequence (.optional (behind (.mark ':') (.reference .type)))
                (braced (.reference .statement))))))
  | _, .decorator =>
      .located (fun position (name, argument) => ⟨position, name, argument.toList⟩)
        (behind (.mark '@')
          (.sequence (.token .decoratorName)
            (.optional (between '(' ')' (.token .identifier)))))
  | _, .type =>
      .choice
        (.located (fun position (type, array) => .basic position type array.isSome)
          (.sequence (.token .basicType) (.optional (.reference .arraySuffix))))
        (.choice (.reference .mapType)
          (.choice (.reference .objectType) (.located .foreign (.token .identifier))))
  | _, .arraySuffix => behind (.mark '[') (.token (.mark ']'))
  | _, .mapType =>
      .located (fun position (key, value) => .map position key value)
        (behind (.word "map")
          (between '<' '>'
            (.sequence (.token .basicType) (behind (.mark ',') (.reference .type)))))
  | _, .objectType => .located .object (braced (before (.reference .field) (.mark ';')))
  | _, .statement => .choice (.reference .compound) (.map .simple (.reference .simple))
  | _, .compound =>
      .choice (.reference .conditional) (.choice (.reference .whileLoop) (.reference .forLoop))
  | _, .simple => .located .mk (before (.reference .small) (.mark ';'))
  | _, .small =>
      .choice (.map (fun _ => .break) (.token (.word "break")))
        (.choice (.map .return (behind (.word "return") (.reference .expression)))
          (.choice (.map .throw (behind (.word "throw") (.reference .expression)))
            (.choice (.map .let (.reference .letBinding))
              (.map .expression (.reference .expression)))))
  | _, .letBinding =>
      .located (fun position (name, value) => ⟨position, name, value⟩)
        (behind (.word "let")
          (.sequence (.token .identifier) (behind (.mark '=') (.reference .expression))))
  | _, .conditional =>
      .located (fun position (condition, thenBranch, elseBranch) =>
          .if position condition (thenBranch.getD .absent) (elseBranch.getD .absent))
        (behind (.word "if")
          (.sequence (between '(' ')' (.reference .expression))
            (.sequence (.optional (.reference .branch))
              (.optional (behind (.word "else") (.reference .branch))))))
  | _, .branch =>
      .choice (.map .block (braced (.reference .statement))) (.map .simple (.reference .simple))
  | _, .whileLoop =>
      .located (fun position (condition, body) => .while position condition body)
        (behind (.word "while")
          (.sequence (between '(' ')' (.reference .expression))
            (braced (.reference .statement))))
  | _, .forLoop =>
      .located (fun position ((init, condition, post), body) =>
          .for position init condition post body)
        (behind (.word "for")
          (.sequence
            (between '(' ')'
              (.sequence
                (before
                  (.choice (.map .let (.reference .letBinding))
                    (.map .expression (.reference .expression)))
                  (.mark ';'))
                (.sequence (before (.reference .expression) (.mark ';'))
                  (.reference .expression))))
            (braced (.reference .statement))))
  | _, .expression =>
      .map (fun (left, operation) =>
          match operation with
          | none => .single left.position left
          | some (operator, right) => .binary left.position left operator right)
        (.sequence (.reference .value) (.optional (.operation (.reference .value))))
  | _, .value =>
      .choice (.located .number (.token .number))
        (.choice (.located .string (.token .string))
          (.choice (.located .boolean (.token (.either "true" "false")))
            (.choice (.reference .call)
              (.choice (.located .identifier (.token .identifier))
                (.located .enclosed (between '(' ')' (.reference .expression)))))))
  | _, .call =>
      .located (fun position (callee, arguments) => .call position callee arguments)
        (.sequence (.token .identifier)
          (between '(' ')' (separated (.reference .expression))))

/-- A program is any number of declarations. -/
def declarations : Phrase (List Declaration) := .many (.reference .declaration)

/-! ## Matching -/

/-- What matching a phrase has led to within a number of steps. -/
inductive Outcome (α : Type) where
  /-- More steps are needed. -/
  | undecided
  | mismatch
  /-- The value that was built, and the tokens behind the match. -/
  | matched (value : α) (rest : List Token)

namespace Outcome

variable {α β : Type}

/-- Goes on behind a match. -/
def andThen (outcome : Outcome α) (next : α → List Token → Outcome β) : Outcome β :=
  match outcome with
  | .undecided => .undecided
  | .mismatch => .mismatch
  | .matched value rest => next value rest

/-- Tries something else instead of a mismatch. -/
def orElse (outcome : Outcome α) (other : Outcome α) : Outcome α :=
  match outcome with
  | .mismatch => other
  | decided => decided

/-- Builds a value from the value that was matched. -/
def map (build : α → β) (outcome : Outcome α) : Outcome β :=
  outcome.andThen fun value rest => .matched (build value) rest

end Outcome

/-- The outcome of matching a phrase at the front of some tokens, within a number of steps. -/
def Phrase.parse : Nat → {α : Type} → Phrase α → List Token → Outcome α
  | 0, _, _, _ => .undecided
  | _ + 1, _, .token _, [] => .mismatch
  | _ + 1, _, .token terminal, first :: rest =>
      match terminal.read first with
      | some value => .matched value rest
      | none => .mismatch
  | steps + 1, _, .reference symbol, tokens => (definition symbol).parse steps tokens
  | steps + 1, _, .sequence first second, tokens =>
      (first.parse steps tokens).andThen fun left behind =>
        (second.parse steps behind).map fun right => (left, right)
  | steps + 1, _, .choice first second, tokens =>
      (first.parse steps tokens).orElse (second.parse steps tokens)
  | steps + 1, _, .optional body, tokens =>
      ((body.parse steps tokens).map some).orElse (.matched none tokens)
  | steps + 1, _, .many body, tokens =>
      match body.parse steps tokens with
      | .undecided => .undecided
      | .mismatch => .matched [] tokens
      | .matched item behind => ((Phrase.many body).parse steps behind).map fun items =>
          item :: items
  | steps + 1, _, .flagged character body, tokens =>
      match tokens with
      | [] => (body.parse steps []).map fun value => (false, value)
      | first :: rest =>
          if first.isSymbol character then (body.parse steps rest).map fun value => (true, value)
          else (body.parse steps tokens).map fun value => (false, value)
  | steps + 1, _, .operation operand, tokens =>
      match operator? tokens with
      | none => .mismatch
      | some (operator, behind) =>
          (operand.parse steps behind).map fun value => (operator, value)
  | steps + 1, _, .map build body, tokens => (body.parse steps tokens).map build
  | steps + 1, _, .located build body, tokens =>
      (body.parse steps tokens).map
        (build ((tokens.head?.map Token.position).getD Position.start))

/-- The tokens in front of the first end of the input. -/
def beforeEnd (tokens : List Token) : List Token := tokens.takeWhile fun token => !token.isEnd

/-- Some tokens, all of them, match the grammar as a program. -/
def Matches (tokens : List Token) (program : Program) : Prop :=
  ∃ steps, declarations.parse steps tokens = .matched program.declarations []

end CollectionSchema.Peg
