/-!
# Why a JSON text is refused

A text is refused for one of three reasons: it is not JSON, it ends too early, or
it is JSON but does not have the wanted shape.  In the last case the failure says
what does not fit.
-/

set_option autoImplicit false

namespace CollectionSchema.Json

/-- How a document differs from the wanted shape. -/
inductive Mismatch where
  | missingField (name : String)
  | duplicateField (name : String)
  /-- A name is none of those that are known. -/
  | unknownVariant (name : String) (known : List String)
  /-- A value of another type stands where one is wanted. -/
  | wrongType
  /-- A value has the wanted type, but lies out of range. -/
  | wrongValue
  /-- An array has too few or too many items. -/
  | wrongLength
  /-- The shape fits, but a further condition does not hold. -/
  | refused (reason : String)
  deriving DecidableEq, Repr

namespace Mismatch

/-- A name between grave accents. -/
def quoted (name : String) : String := "`" ++ name ++ "`"

/-- Names that would have fitted: two of them with an `or` between them, any other number in a
list. -/
def oneOf : List String → String
  | [] => "there are no variants"
  | [only] => "expected " ++ quoted only
  | [first, second] => "expected " ++ quoted first ++ " or " ++ quoted second
  | names => "expected one of " ++ ", ".intercalate (names.map quoted)

/-- The words for a mismatch. -/
def text : Mismatch → String
  | .missingField name => "missing field " ++ quoted name
  | .duplicateField name => "duplicate field " ++ quoted name
  | .unknownVariant name known => "unknown variant " ++ quoted name ++ ", " ++ oneOf known
  | .wrongType => "invalid type"
  | .wrongValue => "invalid value"
  | .wrongLength => "invalid length"
  | .refused reason => reason

end Mismatch

/-- Why a text gives no document of the wanted shape. -/
inductive Failure where
  /-- The text is not JSON. -/
  | malformed
  /-- The text ends before the document does. -/
  | ended
  /-- The document does not have the wanted shape. -/
  | mismatch (detail : Mismatch)
  deriving DecidableEq, Repr

/-- The words for a failure. -/
def Failure.text : Failure → String
  | .malformed => "malformed document"
  | .ended => "unexpected end of the document"
  | .mismatch detail => detail.text

end CollectionSchema.Json
