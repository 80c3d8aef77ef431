import CollectionSchema.Json.Failure
import CollectionSchema.Json.Value

/-!
# A JSON text as far as it can be read

A document is checked against a shape from left to right, and the first thing
that is wrong decides the outcome.  So a text is first turned into a reading: the
document as far as the text gives one, with the faults in the places where they
were met.  Nothing stands behind a fault that cannot be passed over.

Some faults matter only to one who wants the value, such as a number that is too
large or a lone half of a surrogate pair.  Parts of a document that no shape asks
for are merely passed over, and there such faults do not count.
-/

set_option autoImplicit false

namespace CollectionSchema.Json

/-- How an array or an object ends. -/
inductive Closing where
  /-- With its bracket. -/
  | closed
  /-- With something else. -/
  | broken (failure : Failure)
  deriving DecidableEq, Repr

/-- What is wrong with the end of an array or an object, if anything. -/
def Closing.check : Closing → Except Failure Unit
  | .closed => .ok ()
  | .broken failure => .error failure

/-- A document as far as a text gives one.  Wherever a comma stands, something follows it, though it
may be a fault. -/
inductive Reading where
  | null
  | bool (truth : Bool)
  | integer (value : Int)
  | decimal (written : List Char)
  | string (text : String)
  | array (items : List Reading) (closing : Closing)
  /-- The keys are readings too, since anything may stand where a key is wanted. -/
  | object (members : List (Reading × Reading)) (closing : Closing)
  /-- Something that is no value: the character that stands there, unless the text has ended or a
  colon is missing; what is wrong for one who wants the value; and what is wrong for one who
  passes over it, if anything. -/
  | fault (head : Option Char) (decoding : Failure) (skipping : Option Failure)
  deriving Inhabited

namespace Reading

mutual

/-- The reading of a document without faults. -/
def ofJson : Json → Reading
  | .null => .null
  | .bool truth => .bool truth
  | .integer value => .integer value
  | .decimal written => .decimal written
  | .string text => .string text
  | .array items => .array (ofItems items) .closed
  | .object members => .object (ofMembers members) .closed

/-- The readings of the items of an array. -/
def ofItems : List Json → List Reading
  | [] => []
  | item :: rest => ofJson item :: ofItems rest

/-- The readings of the members of an object. -/
def ofMembers : List (String × Json) → List (Reading × Reading)
  | [] => []
  | (key, value) :: rest => (.string key, ofJson value) :: ofMembers rest

end

/-- The text of a reading that stands where a key is wanted. -/
def keyText : Reading → Except Failure String
  | .string text => .ok text
  | .fault none decoding _ => .error decoding
  | .fault (some '"') decoding _ => .error decoding
  | _ => .error .malformed

/-- What is wrong with a reading that stands where a key is wanted, when it is only passed over. -/
def passKey : Reading → Except Failure Unit
  | .string _ => .ok ()
  | .fault none _ (some skipping) => .error skipping
  | .fault none _ none => .ok ()
  | .fault (some '"') _ (some skipping) => .error skipping
  | .fault (some '"') _ none => .ok ()
  | _ => .error .malformed

mutual

/-- Passes over a reading: the first fault that cannot be passed over decides. -/
def pass : Reading → Except Failure Unit
  | .fault _ _ (some skipping) => .error skipping
  | .array items closing => do
    passItems items
    closing.check
  | .object members closing => do
    passMembers members
    closing.check
  | _ => .ok ()

/-- Passes over the items of an array. -/
def passItems : List Reading → Except Failure Unit
  | [] => .ok ()
  | item :: rest => do
    item.pass
    passItems rest

/-- Passes over the members of an object. -/
def passMembers : List (Reading × Reading) → Except Failure Unit
  | [] => .ok ()
  | (key, value) :: rest => do
    key.passKey
    value.pass
    passMembers rest

end

mutual

/-- Takes in a reading as a whole, with at most a number of arrays and objects inside each other:
the first fault decides. -/
def whole : Nat → Reading → Except Failure Unit
  | _, .fault _ decoding _ => .error decoding
  | 0, .array _ _ => .error .malformed
  | 0, .object _ _ => .error .malformed
  | depth + 1, .array items closing => do
    wholeItems depth items
    closing.check
  | depth + 1, .object members closing => do
    wholeMembers depth members
    closing.check
  | _, _ => .ok ()

/-- Takes in the items of an array. -/
def wholeItems (depth : Nat) : List Reading → Except Failure Unit
  | [] => .ok ()
  | item :: rest => do
    whole depth item
    wholeItems depth rest

/-- Takes in the members of an object. -/
def wholeMembers (depth : Nat) : List (Reading × Reading) → Except Failure Unit
  | [] => .ok ()
  | (key, value) :: rest => do
    let _ ← key.keyText
    whole depth value
    wholeMembers depth rest

end

end Reading

end CollectionSchema.Json
