import CollectionSchema.Syntax.Program
import CollectionSchema.Text.Decimal
import CollectionSchema.Token.Basic

/-!
# Phrases of an ordered-choice grammar

A grammar is data here: each of its symbols is defined by a phrase, and a phrase
is built from single tokens and references to symbols by sequence, ordered choice,
option and repetition.  A phrase also says which value is built from what it
matches, so its type is the type of that value.

Two shapes need more than the next token and are therefore phrases of their own:
an operand with an operator in front of it, where the operator may be written
with two tokens, and a phrase with an optional mark in front of it.

Nothing here says how a phrase is matched or what an error looks like.
-/

set_option autoImplicit false

namespace CollectionSchema.Peg

/-! ## Single tokens -/

/-- What a grammar can ask of one token, with the type of the value that the token stands for. -/
inductive Terminal : Type → Type where
  | mark (character : Char) : Terminal Unit
  | word (spelling : String) : Terminal Unit
  /-- One of two words, and whether it is the first. -/
  | either (first second : String) : Terminal Bool
  | identifier : Terminal String
  | string : Terminal String
  /-- A number that is an integer in 64 bits. -/
  | number : Terminal Int64
  | decoratorName : Terminal DecoratorName
  | sortOrder : Terminal SortOrder
  | basicType : Terminal BasicType

/-- The value that a token stands for, when it is what was asked for. -/
def Terminal.read : {α : Type} → Terminal α → Token → Option α
  | _, .mark character, token => if token.isSymbol character then some () else none
  | _, .word spelling, token => if token.isWord spelling then some () else none
  | _, .either first second, token =>
      if token.isWord first then some true else if token.isWord second then some false else none
  | _, .identifier, token => if token.kind = .identifier then some token.lexeme else none
  | _, .string, token => if token.kind = .string then some token.lexeme else none
  | _, .number, token =>
      if token.kind = .number then Text.integer64? token.lexeme.toList else none
  | _, .decoratorName, token =>
      if token.kind = .identifier then DecoratorName.ofWord? token.lexeme else none
  | _, .sortOrder, token =>
      if token.kind = .identifier then SortOrder.ofWord? token.lexeme else none
  | _, .basicType, token =>
      if token.kind = .identifier then BasicType.ofWord? token.lexeme else none

/-- The operator at the front of a list of tokens, with what is left behind it.  Two marks that
spell an operator together are one operator, if the first of them is an operator already. -/
def operator? : List Token → Option (Operator × List Token)
  | [] => none
  | first :: rest =>
      if first.kind = .symbol then
        match Operator.ofSpelling? first.lexeme, rest with
        | none, _ => none
        | some single, [] => some (single, [])
        | some single, second :: others =>
            if second.kind = .symbol then
              match Operator.ofSpelling? (first.lexeme ++ second.lexeme) with
              | some double => some (double, others)
              | none => some (single, second :: others)
            else some (single, second :: others)
      else none

/-! ## Symbols and phrases -/

/-- The symbols of the grammar, each with the type of what it builds. -/
inductive Nonterminal : Type → Type where
  | declaration : Nonterminal Declaration
  | collection : Nonterminal Collection
  | item : Nonterminal Item
  | field : Nonterminal Field
  | index : Nonterminal Index
  | indexField : Nonterminal IndexField
  | function : Nonterminal Function
  | decorator : Nonterminal Decorator
  | type : Nonterminal SchemaType
  | arraySuffix : Nonterminal Unit
  | mapType : Nonterminal SchemaType
  | objectType : Nonterminal SchemaType
  | statement : Nonterminal Statement
  | compound : Nonterminal Statement
  | simple : Nonterminal SimpleStatement
  | small : Nonterminal SmallStatement
  | letBinding : Nonterminal Let
  | conditional : Nonterminal Statement
  | branch : Nonterminal Branch
  | whileLoop : Nonterminal Statement
  | forLoop : Nonterminal Statement
  | expression : Nonterminal Expression
  | value : Nonterminal Value
  | call : Nonterminal Value

/-- A phrase, with the type of the value that it builds. -/
inductive Phrase : Type → Type 1 where
  | token {α : Type} (terminal : Terminal α) : Phrase α
  | reference {α : Type} (symbol : Nonterminal α) : Phrase α
  | sequence {α β : Type} (first : Phrase α) (second : Phrase β) : Phrase (α × β)
  /-- The first phrase where it matches, and the second elsewhere. -/
  | choice {α : Type} (first second : Phrase α) : Phrase α
  | optional {α : Type} (body : Phrase α) : Phrase (Option α)
  /-- As many matches in a row as there are. -/
  | many {α : Type} (body : Phrase α) : Phrase (List α)
  /-- A phrase with a mark in front of it that may be missing. -/
  | flagged {α : Type} (character : Char) (body : Phrase α) : Phrase (Bool × α)
  /-- An operator and its second operand. -/
  | operation {α : Type} (operand : Phrase α) : Phrase (Operator × α)
  | map {α β : Type} (build : α → β) (body : Phrase α) : Phrase β
  /-- A value that also holds the place of the first token of its phrase. -/
  | located {α β : Type} (build : Position → α → β) (body : Phrase α) : Phrase β

namespace Phrase

variable {α : Type}

/-- A phrase behind a word or a mark. -/
def behind (terminal : Terminal Unit) (body : Phrase α) : Phrase α :=
  .map Prod.snd (.sequence (.token terminal) body)

/-- A phrase in front of a word or a mark. -/
def before (body : Phrase α) (terminal : Terminal Unit) : Phrase α :=
  .map Prod.fst (.sequence body (.token terminal))

/-- A phrase between two marks. -/
def between (opening closing : Char) (body : Phrase α) : Phrase α :=
  behind (.mark opening) (before body (.mark closing))

/-- Any number of matches between braces. -/
def braced (body : Phrase α) : Phrase (List α) := between '\x7b' '\x7d' (.many body)

/-- Any number of matches with commas between them. -/
def separated (body : Phrase α) : Phrase (List α) :=
  .map (fun items => items.getD [])
    (.optional (.map (fun items => items.1 :: items.2)
      (.sequence body (.many (behind (.mark ',') body)))))

end Phrase

end CollectionSchema.Peg
