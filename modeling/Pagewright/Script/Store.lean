import Pagewright.Files
import Pagewright.Log
import Pagewright.Markup.Registry
import Pagewright.Script.Fault
import Pagewright.Script.Frame
import Pagewright.Script.Table

/-!
What a running script can reach and change: its heap, and of the host the files it may load and the
log. `Eval` is a computation over a store that gives values or stops.
-/
namespace Pagewright.Script

structure Closure where
  function : Function
  slots : List Nat
  chunk : Bytes

instance : Inhabited Closure := ⟨⟨default, [], []⟩⟩

inductive Generator where
  /-- Resumes a coroutine. -/
  | wrap (thread : Nat)
  /-- The next match of a pattern in a subject: where to go on, and where the last match ended. -/
  | matches (subject pattern : Bytes) (position : Nat) (last : Option Nat)

instance : Inhabited Generator := ⟨.wrap 0⟩

structure Heap where
  cells : Array Value
  tables : Array Table
  closures : Array Closure
  threads : Array Thread
  generators : Array Generator
deriving Inhabited

structure Store where
  heap : Heap
  /-- The table of globals. -/
  globals : Nat
  /-- The metatable of all strings. -/
  stringMeta : Option Nat
  /-- The tag functions, by their place. -/
  tags : Array (String × Markup.Binding)
  files : Files
  /-- What was reported, last first. -/
  log : List LogRecord
  depth : Depth
  /-- The coroutine that runs. -/
  running : Option Nat

instance : Inhabited Store := ⟨⟨default, 0, none, #[], ⟨[]⟩, [], ⟨0, 0⟩, none⟩⟩

abbrev Eval := EStateM Stop Store

abbrev Callback := Value → List Value → Eval (List Value)

namespace Heap

def newCell (h : Heap) (v : Value) : Nat × Heap :=
  (h.cells.size, { h with cells := h.cells.push v })

def newCells (h : Heap) (vs : List Value) : List Nat × Heap :=
  vs.foldl (fun (refs, h) v =>
    let (r, h) := h.newCell v
    (r :: refs, h)) ([], h)

def setCell (h : Heap) (r : Nat) (v : Value) : Heap :=
  { h with cells := h.cells.setIfInBounds r v }

def newTable (h : Heap) (t : Table) : Nat × Heap :=
  (h.tables.size, { h with tables := h.tables.push t })

def table (h : Heap) (r : Nat) : Table := h.tables.getD r Table.empty

def setField (h : Heap) (r : Nat) (k v : Value) : Heap :=
  { h with tables := h.tables.modify r fun t => t.set k v }

def setMetatable (h : Heap) (r : Nat) (m : Option Nat) : Heap :=
  { h with tables := h.tables.modify r fun t => { t with metatable := m } }

def newClosure (h : Heap) (c : Closure) : Nat × Heap :=
  (h.closures.size, { h with closures := h.closures.push c })

def newThread (h : Heap) (t : Thread) : Nat × Heap :=
  (h.threads.size, { h with threads := h.threads.push t })

def setThread (h : Heap) (r : Nat) (t : Thread) : Heap :=
  { h with threads := h.threads.setIfInBounds r t }

def newGenerator (h : Heap) (g : Generator) : Nat × Heap :=
  (h.generators.size, { h with generators := h.generators.push g })

def setGenerator (h : Heap) (r : Nat) (g : Generator) : Heap :=
  { h with generators := h.generators.setIfInBounds r g }

end Heap

namespace Eval

def fault {α : Type} (f : Fault) : Eval α := throw (.fault f)

def raise {α : Type} (v : Value) : Eval α := throw (.raised v)

def onHeap {α : Type} (f : Heap → α × Heap) : Eval α :=
  modifyGet fun s =>
    let (a, h) := f s.heap
    (a, { s with heap := h })

def newTable (t : Table) : Eval Value := do
  return .table (← onHeap (·.newTable t))

def table (r : Nat) : Eval Table := do
  return (← get).heap.table r

def setField (r : Nat) (k v : Value) : Eval Unit :=
  onHeap fun h => ((), h.setField r k v)

def report (level : Level) (text : String) : Eval Unit :=
  modify fun s => { s with log := ⟨level, text⟩ :: s.log }

end Eval

end Pagewright.Script
