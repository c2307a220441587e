import Pagewright.Page.RenderFault
import Pagewright.Page.Variables
import Pagewright.Script.Run

/-!
A context in which scripts run one after the other. Each runs in an environment of its own; what is
left of the heap afterwards is what the library tables reach, so that a script which changes none of
them leaves the context as it was.
-/
namespace Pagewright.Page

open Script (Value Table Heap Store Eval Stop Callback)

/-- How much of each part of a heap is there from the start. -/
structure HeapMark where
  tables : Nat
  closures : Nat
  threads : Nat
  generators : Nat
deriving DecidableEq, Repr, Inhabited

namespace HeapMark

def of (h : Heap) : HeapMark :=
  ⟨h.tables.size, h.closures.size, h.threads.size, h.generators.size⟩

def covers (m : HeapMark) : Value → Bool
  | .table r => r < m.tables
  | .closure r => r < m.closures
  | .thread r => r < m.threads
  | .generator r => r < m.generators
  | _ => true

def coversTable (m : HeapMark) (t : Table) : Bool :=
  t.array.all m.covers && t.others.all (fun (k, v) => m.covers k && m.covers v)
    && (t.metatable.all fun r => r < m.tables)

/-- Drops all that is newer than the mark, if nothing older refers to it. -/
def reclaim (m : HeapMark) (h : Heap) : Heap :=
  let old := h.tables.extract 0 m.tables
  if old.all m.coversTable then
    { cells := #[]
      tables := old
      closures := h.closures.extract 0 m.closures
      threads := h.threads.extract 0 m.threads
      generators := h.generators.extract 0 m.generators }
  else h

end HeapMark

structure Context where
  heap : Heap
  /-- What the heap began with. -/
  mark : HeapMark
  tags : Array (String × Markup.Binding)
  /-- How many scripts have run. -/
  renders : Nat
deriving Inhabited

namespace Context

def ofRegistry (r : Markup.Registry) : Context :=
  let tags := r.bindings.zipIdx.map fun ((name, _), i) => (name, Value.hosted i)
  let heap := Script.Library.heap tags
  ⟨heap, .of heap, r.bindings.toArray, 0⟩

def store (c : Context) (files : Files) : Store :=
  { heap := c.heap
    globals := 0
    stringMeta := some Script.Library.stringMeta
    tags := c.tags
    files
    log := []
    depth := ⟨0, 0⟩
    running := none }

def perform {α : Type} (c : Context) (files : Files) (e : Eval α) :
    Except Stop α × Context × List LogRecord :=
  let finish (s : Store) : Context × List LogRecord :=
    ({ c with heap := c.mark.reclaim s.heap }, s.log.reverse)
  match e (c.store files) with
  | .ok a s => (.ok a, finish s)
  | .error e s => (.error e, finish s)

def chunkName : Bytes := Bytes.ofText "=template"

/-- A step that may stop, as a fault of the page. Used-up fuel is none. -/
def guarded {α : Type} (fault : RenderFault) (e : Eval α) : ExceptT RenderFault Eval α :=
  ExceptT.mk (tryCatch (Except.ok <$> e) fun
    | .exhausted => throw .exhausted
    | _ => return .error fault)

def evaluate (call : Callback) (script : String) : ExceptT RenderFault Eval Value := do
  let env ← liftM (m := Eval) Script.Chunk.newEnvironment
  match ← liftM (m := Eval) (Script.Chunk.loadValue (Bytes.ofText script) chunkName env) with
  | .error _ => throw .execution
  | .ok f => return (← guarded .execution (call f [])).headD .nil

def pageText (v : Value) : Except RenderFault String :=
  match Markup.valueText? v with
  | some html => .ok html
  | none => .error .emptyOutput

def page (call : Callback) (script : String) : ExceptT RenderFault Eval String := do
  let v ← evaluate call script
  if v.isFunction then throw .functionForPage else liftExcept (pageText v)
where
  liftExcept {α : Type} (e : Except RenderFault α) : ExceptT RenderFault Eval α :=
    ExceptT.mk (pure e)

def pageFor (call : Callback) (script : String) (vars : Variables) :
    ExceptT RenderFault Eval String := do
  let f ← evaluate call script
  if !f.isFunction then throw .noFunction
  else
    let table ← liftM (m := Eval) vars.bind
    let v := (← guarded .call (call f [table])).headD .nil
    page.liftExcept (pageText v)

structure Rendering where
  result : Except RenderFault String
  context : Context
  log : List LogRecord

def renderWith (c : Context) (files : Files) (e : ExceptT RenderFault Eval String) : Rendering :=
  let (r, c, log) := c.perform files e.run
  let c := { c with renders := c.renders + 1 }
  match r with
  | .ok result => ⟨result, c, log⟩
  | .error _ => ⟨.error .unfinished, c, log⟩

def render (c : Context) (files : Files) (script : String) : Rendering :=
  c.renderWith files (page Script.callValue script)

def renderVariables (c : Context) (files : Files) (script : String) (vars : Variables) :
    Rendering :=
  c.renderWith files (pageFor Script.callValue script vars)

end Context

end Pagewright.Page
