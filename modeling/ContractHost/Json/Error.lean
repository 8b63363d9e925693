import ContractHost.Decimal.FloatText
import ContractHost.Text.Quoted

/-!
# Errors of reading JSON

Reading fails for one of three reasons: the text ends inside a value, the text is no JSON, or the
JSON that was read so far does not have the shape asked for.  Only the last has a text of its own.
-/

namespace ContractHost.Json

/-- What was found where something else was expected. -/
inductive Found where
  | null
  | boolean (b : Bool)
  | integer (z : Int)
  | float (x : Float)
  | string (s : String)
  | sequence
  | map

/-- The text of what was found. -/
def Found.text : Found → String
  | null => "null"
  | boolean b => "boolean `" ++ (if b then "true" else "false") ++ "`"
  | integer z => "integer `" ++ toString z ++ "`"
  | float x => "floating point `" ++ Decimal.floatText x ++ "`"
  | string s => "string " ++ Text.quoted s
  | sequence => "sequence"
  | map => "map"

/-- How well-formed JSON misses the shape asked for. -/
inductive Mismatch where
  | invalidType (found : Found) (expected : String)
  | invalidValue (found : Found) (expected : String)
  | invalidLength (length : Nat) (expected : String)
  | missingField (name : String)
  | duplicateField (name : String)
  | unknownVariant (name : String) (known : List String)

/-- The text of a mismatch. -/
def Mismatch.message : Mismatch → String
  | invalidType found expected => s!"invalid type: {found.text}, expected {expected}"
  | invalidValue found expected => s!"invalid value: {found.text}, expected {expected}"
  | invalidLength length expected => s!"invalid length {length}, expected {expected}"
  | missingField name => "missing field `" ++ name ++ "`"
  | duplicateField name => "duplicate field `" ++ name ++ "`"
  | unknownVariant name known =>
    "unknown variant `" ++ name ++ "`, expected " ++
      " or ".intercalate (known.map fun k => "`" ++ k ++ "`")

/-- Why reading failed. -/
inductive ReadError where
  | endOfInput
  | malformed
  | mismatch (m : Mismatch)

/-- The text of the error. -/
def ReadError.message : ReadError → String
  | endOfInput => "the text ends inside a value"
  | malformed => "the text is not JSON"
  | mismatch m => m.message

end ContractHost.Json
