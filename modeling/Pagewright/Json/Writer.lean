import Pagewright.Json.Value
import Pagewright.Number.Decimal
import Pagewright.Text.Quoted

/-! Writing JSON, without blanks. -/
namespace Pagewright.Json

def escapeChar (c : Char) : List Char :=
  if c = '"' || c = '\\' then ['\\', c]
  else if c = '\n' then ['\\', 'n']
  else if c = '\t' then ['\\', 't']
  else if c = '\r' then ['\\', 'r']
  else if c = '\x08' then ['\\', 'b']
  else if c = '\x0c' then ['\\', 'f']
  else if c.toNat < 0x20 then
    let ds := Text.hexDigits c.toNat
    '\\' :: 'u' :: List.replicate (4 - ds.length) '0' ++ ds
  else [c]

def quoted (s : String) : String :=
  String.ofList ('"' :: s.toList.flatMap escapeChar ++ ['"'])

/-- A number; one that JSON has no form for is null. -/
def numberText : JsonNumber → String
  | .integer i => Decimal.intText i
  | .float d =>
    if d.isFinite then
      (if d.negative then "-" else "")
        ++ Decimal.general d.magnitude 17 'e'
    else "null"

mutual

def text : Json → String
  | .null => "null"
  | .boolean b => if b then "true" else "false"
  | .number n => numberText n
  | .string s => quoted s
  | .array items => "[" ++ ",".intercalate (itemTexts items) ++ "]"
  | .object fields => "\x7b" ++ ",".intercalate (fieldTexts fields) ++ "\x7d"

def itemTexts : List Json → List String
  | [] => []
  | v :: vs => text v :: itemTexts vs

def fieldTexts : List (String × Json) → List String
  | [] => []
  | (k, v) :: fs => (quoted k ++ ":" ++ text v) :: fieldTexts fs

end

end Pagewright.Json
