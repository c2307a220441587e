import Pagewright.Script.Chunk
import Pagewright.Script.Library.Arguments

/-!
The functions that are globals themselves and need no part of the machine.
-/
namespace Pagewright.Script.Library

def numberInBase (base : Nat) (text : Bytes) : Option Int :=
  let (negative, ds) := Numeral.sign (Numeral.trimmed text)
  let inBase (b : UInt8) : Bool := match digitValue b with
    | some d => d < base
    | none => false
  if ds.isEmpty || !ds.all inBase then none
  else
    let n : Int := numberOf base ds
    some (if negative then -n else n)

def tonumber (args : List Value) : Eval (List Value) := do
  let f : Builtin := .basic .tonumber
  match optArg args 1 with
  | .nil =>
    let v ← anyArg f args 0
    match v with
    | .string s => return [(Numeral.read? s).getD .nil]
    | v => return [v.toNumber?.getD .nil]
  | _ =>
    let base ← integerArg f args 1
    match arg? args 0 with
    | some (.string s) =>
      if base < 2 || 36 < base then bad f 1 "base out of range"
      else return [((numberInBase base.toNat s).map ofInt).getD .nil]
    | _ => bad f 0 ("string expected, got " ++ given args 0)

def select (args : List Value) : Eval (List Value) := do
  let f : Builtin := .basic .select
  let rest := args.drop 1
  match optArg args 0 with
  | .string [35] => return [ofInt rest.length]
  | _ =>
    let n ← integerArg f args 0
    if 0 < n then return rest.drop (n.toNat - 1)
    else if n < 0 && -n ≤ rest.length then return rest.drop (rest.length + n).toNat
    else bad f 0 "index out of range"

/-- The pieces that a function gives, up to an empty one. -/
def pieces (call : Callback) (f : Value) : Nat → Bytes → Eval (Except Unit Bytes)
  | 0, out => return .ok out
  | fuel + 1, out => do
    match (← call f []).headD .nil with
    | .nil => return .ok out
    | .string [] => return .ok out
    | .string s => pieces call f fuel (out ++ s)
    | _ => return .error ()

def load (call : Callback) (args : List Value) : Eval (List Value) := do
  let f : Builtin := .basic .load
  let mode ← bytesOr f args 2 (Bytes.ofText "bt")
  let globals := (← get).globals
  let env := (arg? args 3).getD (.table globals)
  let refuse (message : String) : List Value := [.nil, .string (Bytes.ofText message)]
  let source ← match optArg args 0 with
    | .string s => do pure (Except.ok (s, ← bytesOr f args 1 s))
    | v => do
      let g ← functionArg f [v] 0
      let name ← bytesOr f args 1 (Bytes.ofText "=(load)")
      match ← pieces call g 1000000 [] with
      | .ok s => pure (Except.ok (s, name))
      | .error _ => pure (Except.error "reader function must return a string")
  match source with
  | .error m => return refuse m
  | .ok (s, name) =>
    if isBinary s then return refuse "attempt to load a binary chunk"
    else if !mode.contains 116 then return refuse "attempt to load a text chunk"
    else match ← Chunk.load s name env with
      | .ok g => return [g]
      | .error m => return [.nil, .string m]

def setmetatable (args : List Value) : Eval (List Value) := do
  let f : Builtin := .basic .setmetatable
  let r ← tableArg f args 0
  let m ← match arg? args 1 with
    | some .nil => pure none
    | some (.table m) => pure (some m)
    | _ => bad f 1 "nil or table expected"
  match (← get).metamethod (.table r) Event.metatable with
  | .nil =>
    Eval.onHeap fun h => ((), h.setMetatable r m)
    return [.table r]
  | _ => Eval.fault .protectedMetatable

def basic (call : Callback) (f : BasicFunction) (args : List Value) : Eval (List Value) := do
  let b : Builtin := .basic f
  match f with
  | .assert =>
    let v ← anyArg b args 0
    if v.truthy then return args
    else Eval.raise (args.getD 1 (Value.ofText "assertion failed!"))
  | .collectgarbage => return [ofInt 0]
  | .getmetatable =>
    let v ← anyArg b args 0
    let s ← get
    match v, s.metatable? v with
    | .hosted _, _ => return [.boolean false]
    | _, none => return [.nil]
    | _, some m =>
      match (s.heap.table m).get (.string Event.metatable) with
      | .nil => return [.table m]
      | p => return [p]
  | .ipairs =>
    let v ← anyArg b args 0
    return [.builtin (.basic .ipairsStep), v, ofInt 0]
  | .ipairsStep =>
    let i ← integerArg b args 1
    let next := ofInt (i + 1)
    match ← Eval.getField call (optArg args 0) next with
    | .nil => return [.nil]
    | v => return [next, v]
  | .load => load call args
  | .next =>
    let r ← tableArg b args 0
    match (← Eval.table r).next? (optArg args 1).normalKey with
    | none => Eval.fault .invalidKey
    | some none => return [.nil]
    | some (some (k, v)) => return [k, v]
  | .pairs =>
    let v ← anyArg b args 0
    match (← get).metamethod v Event.pairs with
    | .nil => return [.builtin (.basic .next), v, .nil]
    | g =>
      let vs ← call g [v]
      return [optArg vs 0, optArg vs 1, optArg vs 2]
  | .print => return []
  | .rawequal =>
    let x ← anyArg b args 0
    let y ← anyArg b args 1
    return [.boolean (x.rawEqual y)]
  | .rawget =>
    let r ← tableArg b args 0
    let k ← anyArg b args 1
    return [(← Eval.table r).get k.normalKey]
  | .rawlen =>
    match arg? args 0 with
    | some (.table r) => return [ofInt (← Eval.table r).border]
    | some (.string s) => return [ofInt s.length]
    | _ => bad b 0 "table or string expected"
  | .rawset =>
    let r ← tableArg b args 0
    let k ← anyArg b args 1
    let v ← anyArg b args 2
    Eval.setField r (← lift (checkedKey k)) v
    return [.table r]
  | .select => select args
  | .setmetatable => setmetatable args
  | .tonumber => tonumber args
  | .tostring => return [.string (← textOf call (← anyArg b args 0))]
  | .type => return [Value.ofText (← anyArg b args 0).typeName]

end Pagewright.Script.Library
