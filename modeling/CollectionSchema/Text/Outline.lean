import CollectionSchema.Text.Escape

/-!
# Outlines

An outline shows a tree with the names of its parts, for a reader who wants to
see everything that a value holds.  It is written either on one line, or with
each part on lines of its own, four blanks of indentation for each level and a
comma behind each part.
-/

set_option autoImplicit false

namespace CollectionSchema

/-- A tree with named parts. -/
inductive Outline where
  /-- Something without parts, by its text. -/
  | atom (text : String)
  /-- A named group of named parts. -/
  | record (name : String) (parts : List (String × Outline))
  /-- A group of parts without names; the group itself may lack a name too. -/
  | tuple (name : String) (parts : List Outline)
  /-- Any number of parts of one sort. -/
  | list (parts : List Outline)
  deriving Inhabited

namespace Outline

/-- A text as it stands between quotes. -/
def text (content : String) : Outline := .atom (Text.literal content)

/-- One of two truth values. -/
def truth (value : Bool) : Outline := .atom (if value then "true" else "false")

/-- A part that may be missing. -/
def option : Option Outline → Outline
  | none => .atom "None"
  | some part => .tuple "Some" [part]

/-! ## One line -/

mutual

/-- An outline on one line. -/
def oneLine : Outline → String
  | .atom text => text
  | .record name parts => name ++ " \x7b " ++ oneLineRecord parts ++ " \x7d"
  | .tuple name parts => name ++ "(" ++ oneLineParts parts ++ ")"
  | .list parts => "[" ++ oneLineParts parts ++ "]"

/-- Parts with commas between them. -/
def oneLineParts : List Outline → String
  | [] => ""
  | [part] => oneLine part
  | part :: rest => oneLine part ++ ", " ++ oneLineParts rest

/-- Named parts with commas between them. -/
def oneLineRecord : List (String × Outline) → String
  | [] => ""
  | [(name, part)] => name ++ ": " ++ oneLine part
  | (name, part) :: rest => name ++ ": " ++ oneLine part ++ ", " ++ oneLineRecord rest

end

/-! ## Several lines -/

/-- The start of a line at a level of indentation. -/
def newLine (level : Nat) : String := "\n" ++ "".pushn ' ' (4 * level)

mutual

/-- An outline over several lines, at a level of indentation. -/
def indented (level : Nat) : Outline → String
  | .atom text => text
  | .record name parts =>
    name ++ " \x7b" ++ indentedRecord (level + 1) parts ++ newLine level ++ "\x7d"
  | .tuple name parts => name ++ "(" ++ indentedParts (level + 1) parts ++ newLine level ++ ")"
  | .list [] => "[]"
  | .list parts => "[" ++ indentedParts (level + 1) parts ++ newLine level ++ "]"

/-- Parts on lines of their own. -/
def indentedParts (level : Nat) : List Outline → String
  | [] => ""
  | part :: rest => newLine level ++ indented level part ++ "," ++ indentedParts level rest

/-- Named parts on lines of their own. -/
def indentedRecord (level : Nat) : List (String × Outline) → String
  | [] => ""
  | (name, part) :: rest =>
    newLine level ++ name ++ ": " ++ indented level part ++ "," ++ indentedRecord level rest

end

/-- An outline over several lines. -/
def severalLines (outline : Outline) : String := indented 0 outline

end Outline

end CollectionSchema
