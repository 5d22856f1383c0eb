/-!
# JSON values

The data model of JSON, as far as documents need it.
-/

namespace TypedTx

/-- A JSON value. A number is an integer divided by a power of ten. -/
inductive Json where
  | null
  | bool (b : Bool)
  | number (mantissa : Int) (exponent : Nat)
  | string (s : String)
  | array (items : List Json)
  | object (entries : List (String × Json))
deriving Inhabited

namespace Json

/-- The value of a key; `null` if the key is missing. -/
def getKey (entries : List (String × Json)) (key : String) : Json :=
  (entries.lookup key).getD .null

def string? : Json → Option String
  | .string s => some s
  | _ => none

/-- A value that must be a string or `null`, which counts as absent. -/
def optionalString? : Json → Option (Option String)
  | .null => some none
  | .string s => some (some s)
  | _ => none

def strings? : Json → Option (List String)
  | .array items => items.mapM string?
  | _ => none

end Json
end TypedTx
