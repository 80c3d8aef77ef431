/-!
# Closed sets of words

Three places of the grammar allow only words of a fixed set: the names of
decorators, the sort orders of an index and the basic types.
-/

set_option autoImplicit false

namespace CollectionSchema

/-- What a decorator says about the declaration that it stands before. -/
inductive DecoratorName where
  | «public»
  | read
  | call
  | delegate
  deriving DecidableEq, Repr

namespace DecoratorName

/-- Every decorator name, in order. -/
def all : List DecoratorName := [.public, .read, .call, .delegate]

/-- The word for a decorator name. -/
def word : DecoratorName → String
  | .public => "public"
  | .read => "read"
  | .call => "call"
  | .delegate => "delegate"

/-- The decorator name with this word. -/
def ofWord? (text : String) : Option DecoratorName := all.find? fun name => name.word == text

theorem ofWord?_word (name : DecoratorName) : ofWord? name.word = some name := by
  cases name <;> rfl

end DecoratorName

/-- The direction in which a field of an index sorts. -/
inductive SortOrder where
  | ascending
  | descending
  deriving DecidableEq, Repr

namespace SortOrder

/-- Both sort orders. -/
def all : List SortOrder := [.ascending, .descending]

/-- The sort order of an index field that names none. -/
def unstated : SortOrder := .ascending

/-- The word for a sort order. -/
def word : SortOrder → String
  | .ascending => "asc"
  | .descending => "desc"

/-- The sort order with this word. -/
def ofWord? (text : String) : Option SortOrder := all.find? fun order => order.word == text

theorem ofWord?_word (order : SortOrder) : ofWord? order.word = some order := by
  cases order <;> rfl

end SortOrder

/-- The types that the language itself provides. -/
inductive BasicType where
  | string
  | number
  | boolean
  | record
  deriving DecidableEq, Repr

namespace BasicType

/-- Every basic type, in order. -/
def all : List BasicType := [.string, .number, .boolean, .record]

/-- The word for a basic type. -/
def word : BasicType → String
  | .string => "string"
  | .number => "number"
  | .boolean => "boolean"
  | .record => "record"

/-- The basic type with this word. -/
def ofWord? (text : String) : Option BasicType := all.find? fun basic => basic.word == text

theorem ofWord?_word (type : BasicType) : ofWord? type.word = some type := by
  cases type <;> rfl

end BasicType

end CollectionSchema
