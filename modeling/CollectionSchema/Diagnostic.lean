import CollectionSchema.SyntaxError
import CollectionSchema.Text.Lines

/-!
# Diagnostics

A diagnostic shows a syntax error together with the line of the text in which it
lies, and a caret under the place.  Tabs of the line are kept in front of the
caret, so that both rows are indented alike.
-/

set_option autoImplicit false

namespace CollectionSchema.Diagnostic

/-- A line number with spaces in front up to three characters. -/
def paddedNumber (number : Nat) : String :=
  let digits := toString number
  "".pushn ' ' (3 - digits.length) ++ digits

/-- The padding in front of the caret: the characters of the line before a column, each turned into
a space unless it is a tab. -/
def padding (line : List Char) (column : Nat) : List Char :=
  (line.take (column - 1)).map fun character => if character = '\t' then '\t' else ' '

/-- The diagnostic for an error in a text; the file name is only shown. -/
def render (file source : String) (error : SyntaxError) : String :=
  let line := Text.line source.toList error.position.line
  "error[" ++ error.code.text ++ "]: " ++ error.message ++ "\n" ++
    "  --> " ++ file ++ ":" ++ error.position.display ++ "\n" ++
    "   |\n" ++
    paddedNumber error.position.line ++ " | " ++ String.ofList line ++ "\n" ++
    "   | " ++ String.ofList (padding line error.position.column) ++ "^\n" ++
    match error.help with
    | some help => "help: " ++ help ++ "\n"
    | none => ""

end CollectionSchema.Diagnostic
