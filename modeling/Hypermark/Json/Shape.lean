import Hypermark.Json.Printer
import Hypermark.Text.Printable

/-!
# Values of the wrong shape

A `Mismatch` says why a JSON value is not one of the kind that was asked for: what was found, and what
was expected there.
-/

namespace Hypermark

/-- What was found. -/
inductive Found where
  | null
  | bool (value : Bool)
  | number (value : JsonNumber)
  | text (value : String)
  | sequence
  | map
deriving DecidableEq, Repr

namespace Found

/-- A value as it is found. -/
def ofJson : Json → Found
  | .null => null
  | .bool value => bool value
  | .num value => number value
  | .str value => text value
  | .arr _ => sequence
  | .obj _ => map

/-- The wording of what was found. -/
def message : Found → String
  | null => "null"
  | bool true => "boolean `true`"
  | bool false => "boolean `false`"
  | number (.int value) => "integer `" ++ toString value ++ "`"
  | number (.real value) => "floating point `" ++ (JsonNumber.real value).text ++ "`"
  | text value => "string " ++ Text.visible value
  | sequence => "sequence"
  | map => "map"

end Found

/-- What was expected. -/
inductive Expected where
  | boolean
  | string
  | sequence
  | map
  | size
  | record (name : String)
deriving DecidableEq, Repr

namespace Expected

/-- The wording of what was expected. -/
def message : Expected → String
  | boolean => "a boolean"
  | string => "a string"
  | sequence => "a sequence"
  | map => "a map"
  | size => "usize"
  | record name => "struct " ++ name

end Expected

/-- Why a value has the wrong shape. -/
inductive Mismatch where
  | invalidType (found : Found) (expected : Expected)
  | invalidValue (found : Found) (expected : Expected)
  | missingField (name : String)
  | duplicateField (name : String)
  | tooShort (length : Nat) (record : String) (fields : Nat)
  | tooLong (length : Nat)
deriving DecidableEq, Repr

namespace Mismatch

/-- The wording of a mismatch. -/
def message : Mismatch → String
  | invalidType found expected =>
    "invalid type: " ++ found.message ++ ", expected " ++ expected.message
  | invalidValue found expected =>
    "invalid value: " ++ found.message ++ ", expected " ++ expected.message
  | missingField name => "missing field `" ++ name ++ "`"
  | duplicateField name => "duplicate field `" ++ name ++ "`"
  | tooShort length record fields =>
    "invalid length " ++ toString length ++ ", expected struct " ++ record ++ " with "
      ++ toString fields ++ " elements"
  | tooLong length =>
    "invalid length " ++ toString length ++ ", expected fewer elements in array"

/-- The value is not of the type expected. -/
def ofValue (value : Json) (expected : Expected) : Mismatch :=
  .invalidType (.ofJson value) expected

end Mismatch

end Hypermark
