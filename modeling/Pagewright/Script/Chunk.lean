import Pagewright.Script.Operation
import Pagewright.Script.Parser

/-!
Sources that become functions. A chunk runs in an environment: a table of its own that falls through
to the globals, so that what it assigns stays there.
-/
namespace Pagewright.Script

/-- A new environment for some globals: a table that holds itself as `_G`, and its metatable. -/
def Heap.newEnvironment (h : Heap) (globals : Nat) : Nat × Heap :=
  let (r, h) := h.newTable (Table.withRoom 0 1)
  let (m, h) := h.newTable ((Table.withRoom 0 1).set (.string Event.index) (.table globals))
  (r, (h.setMetatable r (some m)).setField r (Value.ofText "_G") (.table r))

namespace Chunk

def longestName : Nat := 60

/-- The name of a source as messages show it: after `=` as it is, after `@` a file name, of which the
end counts, and else the first line of the source itself. -/
def displayName (name : Bytes) : Bytes :=
  match name with
  | 61 :: rest => rest.take (longestName - 1)
  | 64 :: rest =>
    if name.length ≤ longestName then rest
    else Bytes.ofText "..." ++ rest.drop (rest.length - (longestName - 4))
  | source =>
    let line := source.takeWhile (· ≠ 10)
    let room := longestName - 15
    let shown := if line.length = source.length && source.length < room then source
      else line.take room ++ Bytes.ofText "..."
    Bytes.ofText "[string \"" ++ shown ++ Bytes.ofText "\"]"

def deepestNesting : Nat := 199

def errorText (chunk : Bytes) (e : SourceError) : Bytes :=
  chunk ++ Bytes.ofText (":" ++ Decimal.intText e.line ++ ": " ++ e.fault.message)

/-- The function that runs a source in an environment, or the message why there is none. Reading
counts as a call for the nesting of its statements. -/
def load (source name : Bytes) (env : Value) : Eval (Except Bytes Value) := do
  let chunk := displayName name
  match compile source (deepestNesting - (← get).depth.library) with
  | .error e => return .error (errorText chunk e)
  | .ok f =>
    let cell ← Eval.onHeap (·.newCell env)
    let r ← Eval.onHeap (·.newClosure ⟨f, [cell], chunk⟩)
    return .ok (.closure r)

/-- The function that gives the value of a source, which may be an expression or statements. -/
def loadValue (source name : Bytes) (env : Value) : Eval (Except Bytes Value) := do
  if source.take 4 = 0x1b :: Bytes.ofText "Lua" then load source name env
  else
    match ← load (Bytes.ofText "return " ++ source) name env with
    | .ok f => return .ok f
    | .error _ => load source name env

def newEnvironment : Eval Value := do
  let globals := (← get).globals
  return .table (← Eval.onHeap (·.newEnvironment globals))

end Chunk

end Pagewright.Script
