import Pagewright.Script.Library.Arguments

/-! The functions on numbers. -/
namespace Pagewright.Script.Library

/-- A float as an integer if it is in range, and else as it is. -/
def asInteger (d : Double) : Value :=
  match Value.intOfDouble? d with
  | some i => .integer i
  | none => .float d

def onDouble (f : Float → Float) (d : Double) : Double :=
  if d.isNaN then d
  else
    let r := f d.toFloat
    if r.isNaN then .invalid else .ofFloat r

def remainder (a b : Double) : Double :=
  if a.isNaN then a
  else if b.isNaN then b
  else if a.isInfinite || b.magnitude = 0 then .invalid
  else if b.isInfinite then a
  else
    let r := Double.floorMod a.abs b.abs
    .ofMagnitude a.negative r.magnitude

def fmod (args : List Value) : Eval (List Value) := do
  let b : Builtin := .math .fmod
  match ← numberArg b args 0, ← numberArg b args 1 with
  | .integer x, .integer y =>
    if y = 0 then bad b 1 "zero"
    else return [ofInt (Int.tmod x.toInt y.toInt)]
  | _, _ => return [.float (remainder (← floatArg b args 0) (← floatArg b args 1))]

def extreme (call : Callback) (f : MathFunction) (args : List Value) : Eval (List Value) := do
  let b : Builtin := .math f
  discard <| numberArg b args 0
  let best ← (List.range args.length).foldlM (fun (best : Value) (i : Nat) => do
    discard <| numberArg b args i
    let v := optArg args i
    let s ← get
    let beyond ← Eval.settle call (if f = .max then below s false best v else below s false v best)
    return if beyond.truthy then v else best) (optArg args 0)
  return [best]

def modf (args : List Value) : Eval (List Value) := do
  let b : Builtin := .math .modf
  match optArg args 0 with
  | .integer i => return [.integer i, .float (.ofInt 0)]
  | _ =>
    let d ← floatArg b args 0
    let whole := if d.negative then d.ceil else d.floor
    return [.float whole, .float (
      if Double.compare? whole d = some .eq then .ofInt 0 else d.sub whole)]

def rounded (f : MathFunction) (round : Double → Double) (args : List Value) :
    Eval (List Value) := do
  match ← numberArg (.math f) args 0 with
  | .float d => return [asInteger (round d)]
  | v => return [v]

def math (call : Callback) (f : MathFunction) (args : List Value) : Eval (List Value) := do
  let b : Builtin := .math f
  match f with
  | .abs =>
    match ← numberArg b args 0 with
    | .integer i => return [.integer (if i < 0 then 0 - i else i)]
    | .float d => return [.float d.abs]
    | v => return [v]
  | .ceil => rounded .ceil Double.ceil args
  | .exp => return [.float (onDouble Float.exp (← floatArg b args 0))]
  | .floor => rounded .floor Double.floor args
  | .fmod => fmod args
  | .log =>
    let x ← floatArg b args 0
    match optArg args 1 with
    | .nil => return [.float (onDouble Float.log x)]
    | _ =>
      let base ← floatArg b args 1
      return [.float (
        if base = .ofInt 2 then onDouble Float.log2 x
        else if base = .ofInt 10 then onDouble Float.log10 x
        else (onDouble Float.log x).div (onDouble Float.log base))]
  | .max => extreme call .max args
  | .min => extreme call .min args
  | .modf => modf args
  | .sqrt => return [.float (onDouble Float.sqrt (← floatArg b args 0))]
  | .tointeger =>
    let v ← anyArg b args 0
    match v.toNumber?.bind Value.toInteger? with
    | some i => return [.integer i]
    | none => return [.nil]
  | .type =>
    return [match ← anyArg b args 0 with
      | .integer _ => Value.ofText "integer"
      | .float _ => Value.ofText "float"
      | _ => .nil]
  | .ult =>
    let x ← integerArg b args 0
    let y ← integerArg b args 1
    return [.boolean ((Int64.ofInt x).toUInt64 < (Int64.ofInt y).toUInt64)]

end Pagewright.Script.Library
