import Pagewright.Markup.Tag
import Pagewright.Script.Library
import Pagewright.Script.Machine

/-!
Scripts that run to their end: the machine, and the library and the tags where it hands out a call.
A function that the library calls runs on a machine of its own, one level deeper.
-/
namespace Pagewright.Script

def external (callback : Callback) (f : Value) (args : List Value) : Eval (List Value) := do
  let s ← get
  match f with
  | .builtin b => Library.call callback b args
  | .generator r =>
    match s.heap.generators.getD r default with
    | .matches subject pattern position last =>
      Library.matchesStep r subject pattern position last
    | .wrap _ => Eval.fault (.call "function")
  | .hosted r =>
    match s.tags[r]? with
    | some (name, b) => return [← b.call callback name args]
    | none => Eval.fault (.call "userdata")
  | f => Eval.fault (.call f.typeName)

def nested (f : Value) (args : List Value) (store : Store) : Config :=
  let d := store.depth
  let store := { store with depth := { d with library := d.library + 1 } }
  if deepestLibrary ≤ d.library + 1 then
    ⟨.exit (.raise (Fault.value .nestedCalls none)), [], store⟩
  else ⟨.apply f args none, [], store⟩

/-- Calls a function with a machine for the call. -/
def callBy (run : Config → EStateM.Result Stop Store (List Value)) : Callback :=
  fun f args store =>
    let depth := store.depth
    match run (nested f args store) with
    | .ok vs store => .ok vs { store with depth }
    | .error e store => .error e { store with depth }

@[inline] def goOn (run : Config → EStateM.Result Stop Store (List Value)) (site : Option Site)
    (stack : List Frame) (result : EStateM.Result Stop Store (List Value)) :
    EStateM.Result Stop Store (List Value) :=
  match result with
  | .ok vs store => run ⟨.deliver vs, stack, store⟩
  | .error (.raised v) store => run ⟨.exit (.raise v), stack, store⟩
  | .error (.fault f) store => run ⟨.exit (.raise (f.value site)), stack, store⟩
  | .error .exhausted store => .error .exhausted store

@[inline] def proceed (run : Config → EStateM.Result Stop Store (List Value)) (next : Next) :
    EStateM.Result Stop Store (List Value) :=
  match next with
  | .more c => run c
  | .finished vs store => .ok vs store
  | .failed v store => .error (.raised v) store
  | .library f args site stack store =>
    goOn run site stack (external (callBy run) f args store)

def run : Nat → Config → EStateM.Result Stop Store (List Value)
  | 0, c => .error .exhausted c.store
  | fuel + 1, c => proceed (run fuel) (Machine.step c)

/-- More steps than any script takes. -/
def plenty : Nat := 0x4000000000000000

def callValue : Callback := callBy (run plenty)

end Pagewright.Script
