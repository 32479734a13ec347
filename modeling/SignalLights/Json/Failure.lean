import SignalLights.Decimal.Writing
import SignalLights.Text.Inspect

/-!
# Failures of reading JSON

A text is either malformed, or well formed up to a place where the data does not fit. The second
kind names its cause, in one wording.
-/

namespace SignalLights.Json

/-- Digits of a number in JSON: whole numbers keep a point, and values below `10⁻⁵` or from `10¹⁶`
have a power of ten. -/
def numberStyle : Decimal.Style where
  tie := .even
  keepsPoint := true
  powered place := decide (place < -4) || decide (16 < place)

/-- What stands in a text where something else was expected. -/
inductive Found where
  | null
  | boolean (b : Bool)
  | integer (i : Int)
  | number (x : Binary64)
  | text (s : String)
  | sequence
  | map
  | unitVariant
deriving DecidableEq, Repr

def Found.describe : Found → String
  | .null => "null"
  | .boolean b => "boolean `" ++ toString b ++ "`"
  | .integer i => "integer `" ++ toString i ++ "`"
  | .number x => "floating point `" ++ String.ofList (numberStyle.write x) ++ "`"
  | .text s => "string " ++ Text.inspect s
  | .sequence => "sequence"
  | .map => "map"
  | .unitVariant => "unit variant"

inductive DataError where
  | missingField (name : String)
  | duplicateField (name : String)
  | unknownVariant (given : String) (expected : List String)
  | invalidType (found : Found) (expected : String)
  | invalidValue (found : Found) (expected : String)
  | invalidLength (length : Nat) (expected : String)
deriving DecidableEq, Repr

def quoteName (name : String) : String := "`" ++ name ++ "`"

/-- A choice of names. -/
def oneOf : List String → String
  | [a] => quoteName a
  | [a, b] => quoteName a ++ " or " ++ quoteName b
  | names => "one of " ++ ", ".intercalate (names.map quoteName)

def DataError.message : DataError → String
  | .missingField name => "missing field " ++ quoteName name
  | .duplicateField name => "duplicate field " ++ quoteName name
  | .unknownVariant given expected =>
    "unknown variant " ++ quoteName given ++ ", expected " ++ oneOf expected
  | .invalidType found expected => "invalid type: " ++ found.describe ++ ", expected " ++ expected
  | .invalidValue found expected => "invalid value: " ++ found.describe ++ ", expected " ++ expected
  | .invalidLength length expected =>
    "invalid length " ++ toString length ++ ", expected " ++ expected

inductive Failure where
  | malformed
  | data (e : DataError)
deriving DecidableEq, Repr

end SignalLights.Json
