import ExportLint.Keyed
import ExportLint.Numeric.Numeral

/-!
# JSON values

The values of JSON text. An object lists its fields in the order of their names; of several fields
with one name the last one counts.
-/

namespace ExportLint

/-- A JSON value. -/
inductive Json where
  | null
  | bool (value : Bool)
  | number (value : Numeral)
  | string (value : String)
  | array (items : List Json)
  | object (fields : List (String × Json))
  deriving Repr, Inhabited

namespace Json

/-- The object with the given fields, which may stand in any order and repeat names. -/
def ofFields (written : List (String × Json)) : Json :=
  object (Keyed.ofList written)

/-- What kind of value it is, in words. -/
def kindText : Json → String
  | null => "null"
  | bool _ => "a boolean"
  | number _ => "a number"
  | string _ => "a string"
  | array _ => "an array"
  | object _ => "an object"

end Json

end ExportLint
