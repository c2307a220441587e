import Pagewright.Number.Double
import Pagewright.Script.Builtin
import Pagewright.Text.Utf8

/-!
The values of scripts. Tables, functions with state and threads live in the heap and are values by
their place there, so that equality of values is identity.
-/
namespace Pagewright.Script

inductive Value where
  | nil
  | boolean (b : Bool)
  | integer (i : Int64)
  | float (d : Double)
  | string (s : Bytes)
  | table (ref : Nat)
  /-- A function written in a script. -/
  | closure (ref : Nat)
  | builtin (f : Builtin)
  /-- A library function with state of its own, such as an iterator over matches. -/
  | generator (ref : Nat)
  | thread (ref : Nat)
  /-- A tag function of the page, or any other object of the host. -/
  | hosted (ref : Nat)
  /-- A bare address of the host. -/
  | address
deriving DecidableEq, Repr, Inhabited

namespace Value

/-- Nil and false count as false, all else as true. -/
def truthy : Value → Bool
  | .nil | .boolean false => false
  | _ => true

def isNil : Value → Bool
  | .nil => true
  | _ => false

def isFunction : Value → Bool
  | .closure _ | .builtin _ | .generator _ => true
  | _ => false

def typeName : Value → String
  | .nil => "nil"
  | .boolean _ => "boolean"
  | .integer _ | .float _ => "number"
  | .string _ => "string"
  | .table _ => "table"
  | .closure _ | .builtin _ | .generator _ => "function"
  | .thread _ => "thread"
  | .hosted _ | .address => "userdata"

/-- The name of a value's kind, as the host's messages give it: integers are told from floats and
addresses from objects. -/
def kindName : Value → String
  | .integer _ => "integer"
  | .address => "lightuserdata"
  | v => v.typeName

def ofText (s : String) : Value := .string (Bytes.ofText s)

def int64? (i : Int) : Option Int64 :=
  if -0x8000000000000000 ≤ i ∧ i < 0x8000000000000000 then some (Int64.ofInt i) else none

def intOfDouble? (d : Double) : Option Int64 := d.toInt?.bind int64?

/-- A key as tables keep it: a float that stands for an integer is that integer. -/
def normalKey : Value → Value
  | .float d => match intOfDouble? d with
    | some i => .integer i
    | none => .float d
  | v => v

end Value

inductive Literal where
  | nil
  | boolean (b : Bool)
  | integer (i : Int64)
  | float (d : Double)
  | string (s : Bytes)
deriving DecidableEq, Repr, Inhabited

def Literal.value : Literal → Value
  | .nil => .nil
  | .boolean b => .boolean b
  | .integer i => .integer i
  | .float d => .float d
  | .string s => .string s

end Pagewright.Script
