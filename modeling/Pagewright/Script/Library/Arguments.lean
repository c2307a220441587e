import Pagewright.Script.Operation

/-! How library functions take their arguments, counted from 0. -/
namespace Pagewright.Script.Library

def arg? (args : List Value) (i : Nat) : Option Value := args[i]?

def given (args : List Value) (i : Nat) : String :=
  match arg? args i with
  | some v => v.typeName
  | none => "no value"

def bad {α : Type} (f : Builtin) (i : Nat) (reason : String) : Eval α :=
  Eval.fault (.badArgument (i + 1) f.name reason)

def anyArg (f : Builtin) (args : List Value) (i : Nat) : Eval Value :=
  match arg? args i with
  | some v => return v
  | none => bad f i "value expected"

def optArg (args : List Value) (i : Nat) : Value := args.getD i .nil

def tableArg (f : Builtin) (args : List Value) (i : Nat) : Eval Nat :=
  match arg? args i with
  | some (.table r) => return r
  | _ => bad f i ("table expected, got " ++ given args i)

def functionArg (f : Builtin) (args : List Value) (i : Nat) : Eval Value :=
  match arg? args i with
  | some v =>
    if v.isFunction then return v else bad f i ("function expected, got " ++ given args i)
  | none => bad f i "function expected, got no value"

def numberArg (f : Builtin) (args : List Value) (i : Nat) : Eval Value :=
  match (optArg args i).toNumber? with
  | some v => return v
  | none => bad f i ("number expected, got " ++ given args i)

def integerArg (f : Builtin) (args : List Value) (i : Nat) : Eval Int := do
  match (← numberArg f args i).toInteger? with
  | some n => return n.toInt
  | none => bad f i "number has no integer representation"

def integerOr (f : Builtin) (args : List Value) (i : Nat) (default : Int) : Eval Int :=
  match optArg args i with
  | .nil => return default
  | _ => integerArg f args i

def floatArg (f : Builtin) (args : List Value) (i : Nat) : Eval Double := do
  match (← numberArg f args i).toDouble? with
  | some d => return d
  | none => return .invalid

def bytesArg (f : Builtin) (args : List Value) (i : Nat) : Eval Bytes :=
  match (optArg args i).toBytes? with
  | some s => return s
  | none => bad f i ("string expected, got " ++ given args i)

def bytesOr (f : Builtin) (args : List Value) (i : Nat) (default : Bytes) : Eval Bytes :=
  match optArg args i with
  | .nil => return default
  | _ => bytesArg f args i

def ofInt (i : Int) : Value := .integer (Int64.ofInt i)

def lift {α : Type} : Except Fault α → Eval α
  | .ok a => return a
  | .error f => Eval.fault f

/-- Where a part of a string of `n` bytes begins: positions from the end are negative. -/
def startOf (n : Nat) (i : Int) : Nat :=
  if 0 < i then i.toNat
  else if i = 0 || i < -n then 1
  else (n + i + 1).toNat

def endOf (n : Nat) (j : Int) : Nat :=
  if n < j then n
  else if 0 ≤ j then j.toNat
  else if j < -n then 0
  else (n + j + 1).toNat

def part (s : Bytes) (i j : Nat) : Bytes :=
  if j < i then [] else (s.drop (i - 1)).take (j + 1 - i)

def addressText (kind : String) (ref : Nat) : String :=
  let digits := Nat.toDigits 16 (0x55550000 + 32 * ref)
  kind ++ ": 0x" ++ String.ofList (List.replicate (14 - digits.length) '0' ++ digits)

def textOf (call : Callback) (v : Value) : Eval Bytes := do
  let s ← get
  match s.metamethod v Event.tostring with
  | .nil =>
    match v with
    | .hosted r =>
      match s.tags[r]? with
      | some (name, _) => return Bytes.ofText ("dsl: " ++ name)
      | none => return Bytes.ofText (addressText "userdata" r)
    | .nil => return Bytes.ofText "nil"
    | .boolean b => return Bytes.ofText (if b then "true" else "false")
    | .table r =>
      match s.metamethod v Event.name with
      | .string n => return n ++ Bytes.ofText (addressText "" r)
      | _ => return Bytes.ofText (addressText "table" r)
    | .closure r => return Bytes.ofText (addressText "function" r)
    | .generator r => return Bytes.ofText (addressText "function" (r + 65536))
    | .builtin f => return Bytes.ofText ("function: builtin: " ++ f.name)
    | .thread r => return Bytes.ofText (addressText "thread" r)
    | .address => return Bytes.ofText (addressText "userdata" 0)
    | v => return v.toBytes?.getD []
  | f =>
    match (← call f [v]).headD .nil with
    | .string t => return t
    | r =>
      match r.toBytes? with
      | some t => return t
      | none => Eval.fault (.format "'__tostring' must return a string")

end Pagewright.Script.Library
