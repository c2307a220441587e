import Pagewright.Script.Library.Arguments

/-! The functions on coroutines that do not change from one to another. -/
namespace Pagewright.Script.Library

def mainThread : Nat := 0

def threadArg (f : Builtin) (args : List Value) (i : Nat) : Eval Nat :=
  match arg? args i with
  | some (.thread t) => return t
  | _ => bad f i ("coroutine expected, got " ++ given args i)

def statusOf (s : Store) (t : Nat) : String :=
  match s.heap.threads.getD t .dead with
  | .fresh _ | .suspended .. => "suspended"
  | .running => if s.running.getD mainThread = t then "running" else "normal"
  | .dead => "dead"

/-- The values that the blocks of a waiting coroutine are to close, innermost first. -/
def toClose (frames : List Frame) : List Value :=
  frames.filterMap fun
    | .closes v => some v
    | _ => none

def closeValue (call : Callback) (v : Value) : Eval Unit := do
  match (← get).metamethod v Event.close with
  | .nil => pure ()
  | f => discard <| call f [v, .nil]

def closeThread (call : Callback) (t : Nat) : Eval (List Value) := do
  let s ← get
  match s.heap.threads.getD t .dead with
  | .running => Eval.fault (.format ("cannot close a " ++ statusOf s t ++ " coroutine"))
  | th =>
    Eval.onHeap fun h => ((), h.setThread t .dead)
    let vs := match th with
      | .suspended frames _ => toClose frames
      | _ => []
    for v in vs do closeValue call v
    return [.boolean true]

def coroutine (call : Callback) (f : CoroutineFunction) (args : List Value) :
    Eval (List Value) := do
  let b : Builtin := .coroutine f
  let start : Eval Nat := do
    let f ← functionArg b args 0
    Eval.onHeap (·.newThread (.fresh f))
  match f with
  | .close => closeThread call (← threadArg b args 0)
  | .create => return [.thread (← start)]
  | .isyieldable => return [.boolean (← get).running.isSome]
  | .running =>
    let s ← get
    return [.thread (s.running.getD mainThread), .boolean s.running.isNone]
  | .status => return [Value.ofText (statusOf (← get) (← threadArg b args 0))]
  | .wrap =>
    let t ← start
    return [.generator (← Eval.onHeap (·.newGenerator (.wrap t)))]

end Pagewright.Script.Library
