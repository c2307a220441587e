import Pagewright.Json.Value
import Pagewright.Script.Store
import Pagewright.Text.Quoted

/-!
The variables of a page, as a table for its script. Strings, numbers, booleans and arrays of those
are bound; all else is left out, with a warning for each.
-/
namespace Pagewright.Page

open Script (Value Table Eval)

abbrev Variables := JsonFields

namespace Variables

/-- The value of a number: integers of 64 bits with a sign stay integers. -/
def number : JsonNumber → Value
  | .integer i => match Value.int64? i with
    | some i => .integer i
    | none => .float (.ofInt i)
  | .float d => .float d

def scalar? : Json → Option Value
  | .string s => some (Value.ofText s)
  | .boolean b => some (.boolean b)
  | .number n => some (number n)
  | _ => none

def list (items : List Json) : Table :=
  Table.ofListWithin items.length (items.filterMap scalar?)

def itemWarnings (key : String) (items : List Json) : List String :=
  (items.filter fun v => (scalar? v).isNone).map fun v =>
    "unsupported type for element of variable " ++ Text.quote key ++ ": " ++ v.kindName

def warningsOf (key : String) (v : Json) : List String :=
  match v with
  | .array items => itemWarnings key items
  | v => if (scalar? v).isSome then []
    else ["unsupported type for variable " ++ Text.quote key ++ ": " ++ v.kindName]

def warnings (vars : Variables) : List String :=
  vars.flatMap fun (key, v) => warningsOf key v

def bindOne (table : Nat) (key : String) (v : Json) : Eval Unit := do
  match v, scalar? v with
  | _, some value => Eval.setField table (Value.ofText key) value
  | .array items, none => Eval.setField table (Value.ofText key) (← Eval.newTable (list items))
  | _, none => pure ()

def bind (vars : Variables) : Eval Value := do
  let table ← Eval.onHeap (·.newTable Table.empty)
  for (key, v) in vars do bindOne table key v
  for w in warnings vars do Eval.report .warn w
  return .table table

end Variables

end Pagewright.Page
