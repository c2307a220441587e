import Pagewright.Text.Blank
import Pagewright.Text.Casing
import Pagewright.Text.Quoted
import Pagewright.Text.Utf8

/-! Environment variables, read as texts, flags and numbers. -/
namespace Pagewright.Server

structure Environment where
  settings : List (String × Bytes)
deriving DecidableEq, Repr, Inhabited

inductive NumberFault where
  | empty | invalidDigit | tooLarge
deriving DecidableEq, Repr

def NumberFault.message : NumberFault → String
  | empty => "cannot parse integer from empty string"
  | invalidDigit => "invalid digit found in string"
  | tooLarge => "number too large to fit in target type"

inductive EnvironmentFault where
  | notText (name : String)
  | missing (name : String)
  | invalidNumber (name value : String) (fault : NumberFault)
deriving DecidableEq, Repr

def EnvironmentFault.message : EnvironmentFault → String
  | notText name => Text.quote name ++ " env var is not unicode"
  | missing name => Text.quote name ++ " env var is missing and no default provided"
  | invalidNumber name value fault =>
    Text.quote name ++ " env var: invalid number " ++ Text.quote value ++ ": " ++ fault.message

def falseTexts : List String := ["0", "", "off", "false", "no"]

/-- The flag a text stands for: anything but a no is a yes. -/
def flagValue (s : String) : Bool :=
  !falseTexts.contains (Text.lowercase (Text.trim s))

def greatestNumber : Nat := 0xffffffff

/-- Reads digits one after the other; the first that is none, or that leads too far, counts. -/
def digits (n : Nat) : List Char → Except NumberFault Nat
  | [] => .ok n
  | c :: cs =>
    if !c.isDigit then .error .invalidDigit
    else
      let n := n * 10 + (c.toNat - 48)
      if greatestNumber < n then .error .tooLarge else digits n cs

def parseNumber (s : String) : Except NumberFault Nat :=
  match s.toList with
  | [] => .error .empty
  | ['+'] => .error .invalidDigit
  | '+' :: cs => digits 0 cs
  | cs => digits 0 cs

namespace Environment

def get? (env : Environment) (name : String) : Except EnvironmentFault (Option String) :=
  match env.settings.lookup name with
  | none => .ok none
  | some value =>
    match value.toText? with
    | some s => .ok (some s)
    | none => .error (.notText name)

def getOr (env : Environment) (name : String) (fallback : Option String) :
    Except EnvironmentFault String := do
  match ← env.get? name, fallback with
  | some s, _ => return s
  | none, some s => return s
  | none, none => throw (.missing name)

def flag (env : Environment) (name : String) (default : Bool) : Except EnvironmentFault Bool := do
  return ((← env.get? name).map flagValue).getD default

def number (env : Environment) (name : String) (default : Nat) : Except EnvironmentFault Nat := do
  match ← env.get? name with
  | none => return default
  | some s =>
    match parseNumber (Text.trim s) with
    | .ok n => return n
    | .error f => throw (.invalidNumber name s f)

end Environment

end Pagewright.Server
