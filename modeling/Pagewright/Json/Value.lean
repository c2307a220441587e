import Pagewright.Number.Double

/-! JSON values. An object keeps its keys in ascending order, each once. -/
namespace Pagewright

/-- A number as it is held: an integer of 64 bits, with or without a sign, or a double. -/
inductive JsonNumber where
  /-- From `-2 ^ 63` to `2 ^ 64 - 1`. -/
  | integer (i : Int)
  | float (d : Double)
deriving DecidableEq, Repr

inductive Json where
  | null
  | boolean (b : Bool)
  | number (n : JsonNumber)
  | string (s : String)
  | array (items : List Json)
  | object (fields : List (String × Json))
deriving Repr, Inhabited

/-- Keys with their values; the keys ascend. -/
abbrev JsonFields := List (String × Json)

namespace JsonFields

def insert (key : String) (value : Json) : JsonFields → JsonFields
  | [] => [(key, value)]
  | (k, v) :: rest =>
    if key < k then (key, value) :: (k, v) :: rest
    else if k < key then (k, v) :: insert key value rest
    else (key, value) :: rest

/-- Fields in any order, of which the last of a key counts. -/
def ofList (fields : List (String × Json)) : JsonFields :=
  fields.foldl (fun fs (k, v) => insert k v fs) []

def get? (key : String) (fields : JsonFields) : Option Json :=
  fields.lookup key

end JsonFields

namespace Json

def kindName : Json → String
  | null => "null"
  | boolean _ => "boolean"
  | number _ => "number"
  | string _ => "string"
  | array _ => "array"
  | object _ => "object"

end Json

end Pagewright
