/-!
# Words with a contextual meaning

No word is reserved: each of these is a keyword only at certain places of the
grammar and a plain name everywhere else.  An error message that meets one of
them says so.
-/

set_option autoImplicit false

namespace CollectionSchema

/-- The words that are keywords somewhere in the grammar. -/
def contextualKeywords : List String :=
  ["collection", "function", "index", "unique", "map", "if", "else", "while", "for", "let", "break",
    "return", "throw", "true", "false", "string", "number", "boolean", "record", "public", "read",
    "call", "delegate", "asc", "desc"]

/-- Whether a word is a keyword somewhere in the grammar. -/
def isContextualKeyword (word : String) : Bool := contextualKeywords.contains word

end CollectionSchema
