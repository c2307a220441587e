import Pagewright.Proofs.Confinement
import Pagewright.Proofs.MovedTables

/-!
Stores that mirror each other: the tags are at other places, and the other keys of the globals stand in
another order. Whatever is put into both leaves them mirrors.
-/
namespace Pagewright.Script

variable {π : Nat ↪ Nat}

/-! ### Values at other places -/

def Env.moved (π : Nat ↪ Nat) (env : Env) : Env := { env with extra := env.extra.map (·.moved π) }

def Place.moved (π : Nat ↪ Nat) : Place → Place
  | .cell r => .cell r
  | .field o k line => .field (o.moved π) (k.moved π) line

def Construction.moved (π : Nat ↪ Nat) (c : Construction) : Construction :=
  { c with waiting := c.waiting.map (·.moved π) }

def Exit.moved (π : Nat ↪ Nat) : Exit → Exit
  | .returns vs => .returns (vs.map (·.moved π))
  | .breakLoop => .breakLoop
  | .goto l => .goto l
  | .raise v => .raise (v.moved π)
  | .done vs => .done (vs.map (·.moved π))

def Frame.moved (π : Nat ↪ Nat) : Frame → Frame
  | .items rest done env => .items rest (done.map (·.moved π)) (env.moved π)
  | .callee args env line tail => .callee args (env.moved π) line tail
  | .arguments f before site tail => .arguments (f.moved π) (before.map (·.moved π)) site tail
  | .receiver name args env line tail => .receiver name args (env.moved π) line tail
  | .found o args env line tail => .found (o.moved π) args (env.moved π) line tail
  | .first => .first
  | .unary op site => .unary op site
  | .left op r env line => .left op r (env.moved π) line
  | .right op l site => .right op (l.moved π) site
  | .both r env => .both r (env.moved π)
  | .either r env => .either r (env.moved π)
  | .verdict negated => .verdict negated
  | .object k env line => .object k (env.moved π) line
  | .key o site => .key (o.moved π) site
  | .item c rest env site => .item (c.moved π) rest (env.moved π) site
  | .spread c => .spread (c.moved π)
  | .fieldKey c e rest env site => .fieldKey (c.moved π) e rest (env.moved π) site
  | .fieldValue c k rest env site => .fieldValue (c.moved π) (k.moved π) rest (env.moved π) site
  | .after rest block env => .after rest block (env.moved π)
  | .locals n i rest block env site => .locals n i rest block (env.moved π) site
  | .targetObject k line rest places values env =>
    .targetObject k line rest (places.map (·.moved π)) values (env.moved π)
  | .targetKey o line rest places values env =>
    .targetKey (o.moved π) line rest (places.map (·.moved π)) values (env.moved π)
  | .assigned places chunk => .assigned (places.map (·.moved π)) chunk
  | .assigning rest chunk =>
    .assigning (rest.map (Prod.map (Place.moved π) (Value.moved π))) chunk
  | .branch yes no env => .branch yes no (env.moved π)
  | .whileTest c b env => .whileTest c b (env.moved π)
  | .whileBody c b env => .whileBody c b (env.moved π)
  | .untilBody b env => .untilBody b (env.moved π)
  | .exitTest => .exitTest
  | .countRange b env site => .countRange b (env.moved π) site
  | .countBody c b env => .countBody c b (env.moved π)
  | .eachRange n b env site => .eachRange n b (env.moved π) site
  | .eachStep f s n b env site => .eachStep (f.moved π) (s.moved π) n b (env.moved π) site
  | .eachBody f s c n b env site =>
    .eachBody (f.moved π) (s.moved π) (c.moved π) n b (env.moved π) site
  | .returning => .returning
  | .activation site caller => .activation site caller
  | .boundary caller => .boundary caller
  | .protect handler site caller => .protect (handler.map (·.moved π)) site caller
  | .handling caller => .handling caller
  | .coroutine t mode site resumer caller => .coroutine t mode site resumer caller
  | .closes v => .closes (v.moved π)
  | .exits e caller => .exits (e.moved π) caller

def Thread.moved (π : Nat ↪ Nat) : Thread → Thread
  | .fresh f => .fresh (f.moved π)
  | .suspended frames scripts => .suspended (frames.map (·.moved π)) scripts
  | .running => .running
  | .dead => .dead

def Control.moved (π : Nat ↪ Nat) : Control → Control
  | .eval e env => .eval e (env.moved π)
  | .exec rest block env => .exec rest block (env.moved π)
  | .deliver vs => .deliver (vs.map (·.moved π))
  | .apply f args site => .apply (f.moved π) (args.map (·.moved π)) site
  | .exit e => .exit (e.moved π)

/-! ### Mirrors -/

/-- A heap and its mirror. The tables are the same but for the order of the globals. -/
structure Heap.Mirrors (π : Nat ↪ Nat) (globals : Nat) (h h' : Heap) : Prop where
  cells : h'.cells = h.cells.map (·.moved π)
  size : h'.tables.size = h.tables.size
  tables : ∀ r, ((h.table r).moved π).Reordered (h'.table r)
  ordered : ∀ r, r ≠ globals → h'.table r = (h.table r).moved π
  closures : h'.closures = h.closures
  threads : h'.threads = h.threads.map (·.moved π)
  generators : h'.generators = h.generators

/-- A store and its mirror, which has each tag at another place. -/
structure Store.Mirrors (π : Nat ↪ Nat) (s s' : Store) : Prop where
  heap : s.heap.Mirrors π s.globals s'.heap
  globals : s'.globals = s.globals
  globals_first : s.globals = 0
  stringMeta : s'.stringMeta = s.stringMeta
  tags : ∀ r, s'.tags[π r]? = s.tags[r]?
  untagged : ∀ r, s.tags[r]? = none → π r = r
  files : s'.files = s.files
  log : s'.log = s.log
  depth : s'.depth = s.depth
  running : s'.running = s.running

namespace Heap.Mirrors

variable {g : Nat} {h h' : Heap} (m : h.Mirrors π g h')
include m

theorem cell (r : Nat) : h'.cells.getD r .nil = (h.cells.getD r .nil).moved π := by
  rw [m.cells, Table.getD_moved]

theorem thread (r : Nat) : h'.threads.getD r .dead = (h.threads.getD r .dead).moved π := by
  rw [m.threads, Array.getD_eq_getD_getElem?, Array.getD_eq_getD_getElem?, Array.getElem?_map]
  cases h.threads[r]? <;> rfl

theorem get (r : Nat) (k : Value) :
    (h'.table r).get (k.moved π) = ((h.table r).get k).moved π :=
  ((m.tables r).get _).trans (Table.get_moved k)

theorem metatable (r : Nat) : (h'.table r).metatable = (h.table r).metatable :=
  (m.tables r).metatable

theorem border (r : Nat) : (h'.table r).border = (h.table r).border :=
  (m.tables r).border.trans Table.border_moved

theorem sequence (r : Nat) : (h'.table r).sequence = (h.table r).sequence.map (·.moved π) :=
  (m.tables r).sequence.trans Table.sequence_moved

/-! What changes both. -/

/-- A table is changed in a way that does not depend on the order of its keys. -/
theorem modify (f f' : Table → Table) (hf : ∀ t, f' (t.moved π) = (f t).moved π)
    (horder : ∀ {t t' : Table}, t.Reordered t' → (f' t).Reordered (f' t')) (r : Nat) :
    Heap.Mirrors π g { h with tables := h.tables.modify r f }
      { h' with tables := h'.tables.modify r f' } := by
  have htable (r' : Nat) : Heap.table { h with tables := h.tables.modify r f } r' =
      if r = r' ∧ r < h.tables.size then f (h.table r') else h.table r' :=
    Heap.table_modify h r r' f
  have htable' (r' : Nat) : Heap.table { h' with tables := h'.tables.modify r f' } r' =
      if r = r' ∧ r < h.tables.size then f' (h'.table r') else h'.table r' := by
    rw [← m.size]
    exact Heap.table_modify h' r r' f'
  constructor
  case size => exact Array.size_modify.trans (m.size.trans Array.size_modify.symm)
  case tables =>
    intro r'
    rw [htable, htable']
    split
    · exact hf _ ▸ horder (m.tables r')
    · exact m.tables r'
  case ordered =>
    intro r' hr
    rw [htable, htable', m.ordered r' hr]
    split
    · exact hf _
    · rfl
  all_goals cases m; assumption

theorem setField (r : Nat) (k v : Value) :
    Heap.Mirrors π g (h.setField r k v) (h'.setField r (k.moved π) (v.moved π)) :=
  m.modify _ _ (fun _ => Table.set_moved k v) (fun ht => ht.set _ _) r

theorem storeItems (r n : Nat) (vs : List Value) :
    Heap.Mirrors π g { h with tables := h.tables.modify r fun t => t.storeItems n vs }
      { h' with tables := h'.tables.modify r fun t => t.storeItems n (vs.map (·.moved π)) } :=
  m.modify _ _ (fun _ => Table.storeItems_moved n vs) (fun ht => ht.storeItems n _) r

theorem setMetatable (r : Nat) (metatable : Option Nat) :
    Heap.Mirrors π g (h.setMetatable r metatable) (h'.setMetatable r metatable) :=
  m.modify (fun t => { t with metatable }) (fun t => { t with metatable }) (fun _ => rfl)
    (fun ht => ⟨ht.array, ht.others, ht.room, rfl⟩) r

theorem newTable_fst (t t' : Table) : (h'.newTable t').1 = (h.newTable t).1 := m.size

theorem newTable (t : Table) :
    Heap.Mirrors π g (h.newTable t).2 (h'.newTable (t.moved π)).2 := by
  have htable (r : Nat) : (h'.newTable (t.moved π)).2.table r =
      if r = h.tables.size then t.moved π else h'.table r := by
    rw [Heap.table_newTable, m.size]
  constructor
  case size => rw [Heap.size_newTable, Heap.size_newTable, m.size]
  case tables =>
    intro r
    rw [htable, Heap.table_newTable]
    split
    · exact .refl _
    · exact m.tables r
  case ordered =>
    intro r hr
    rw [htable, Heap.table_newTable, m.ordered r hr]
    split <;> rfl
  all_goals cases m; assumption

theorem withCells {cells cells' : Array Value} (hcells : cells' = cells.map (·.moved π)) :
    Heap.Mirrors π g { h with cells } { h' with cells := cells' } :=
  { m with cells := hcells }

theorem newCell (v : Value) : Heap.Mirrors π g (h.newCell v).2 (h'.newCell (v.moved π)).2 :=
  m.withCells (by rw [m.cells, Array.map_push])

theorem newCell_fst (v v' : Value) : (h'.newCell v').1 = (h.newCell v).1 := by
  change h'.cells.size = h.cells.size
  rw [m.cells, Array.size_map]

theorem setCell (r : Nat) (v : Value) :
    Heap.Mirrors π g (h.setCell r v) (h'.setCell r (v.moved π)) :=
  m.withCells (by rw [m.cells, Array.map_setIfInBounds])

theorem newCells (vs : List Value) :
    (h'.newCells (vs.map (·.moved π))).1 = (h.newCells vs).1 ∧
      Heap.Mirrors π g (h.newCells vs).2 (h'.newCells (vs.map (·.moved π))).2 := by
  have hfrom (vs : List Value) : ∀ (refs : List Nat) {h h' : Heap}, h.Mirrors π g h' →
      ((vs.map (·.moved π)).foldl (fun (p : List Nat × Heap) v =>
          ((p.2.newCell v).1 :: p.1, (p.2.newCell v).2)) (refs, h')).1 =
        (vs.foldl (fun (p : List Nat × Heap) v =>
          ((p.2.newCell v).1 :: p.1, (p.2.newCell v).2)) (refs, h)).1 ∧
      Heap.Mirrors π g
        (vs.foldl (fun (p : List Nat × Heap) v =>
          ((p.2.newCell v).1 :: p.1, (p.2.newCell v).2)) (refs, h)).2
        ((vs.map (·.moved π)).foldl (fun (p : List Nat × Heap) v =>
          ((p.2.newCell v).1 :: p.1, (p.2.newCell v).2)) (refs, h')).2 := by
    induction vs with
    | nil => exact fun _ _ _ m => ⟨rfl, m⟩
    | cons v vs ih =>
      intro refs h h' m
      have hfirst := ih ((h.newCell v).1 :: refs) (m.newCell v)
      rw [List.map_cons, List.foldl_cons, List.foldl_cons]
      dsimp only
      rw [m.newCell_fst v]
      exact hfirst
  exact hfrom vs [] m

theorem newClosure_fst (c : Closure) : (h'.newClosure c).1 = (h.newClosure c).1 :=
  congrArg Array.size m.closures

theorem newClosure (c : Closure) : Heap.Mirrors π g (h.newClosure c).2 (h'.newClosure c).2 :=
  { m with closures := congrArg (·.push c) m.closures }

theorem newThread_fst (t t' : Thread) : (h'.newThread t').1 = (h.newThread t).1 := by
  change h'.threads.size = h.threads.size
  rw [m.threads, Array.size_map]

theorem newThread (t : Thread) :
    Heap.Mirrors π g (h.newThread t).2 (h'.newThread (t.moved π)).2 :=
  { m with threads := (congrArg (Array.push · _) m.threads).trans Array.map_push.symm }

theorem setThread (r : Nat) (t : Thread) :
    Heap.Mirrors π g (h.setThread r t) (h'.setThread r (t.moved π)) :=
  { m with
    threads := (congrArg (Array.setIfInBounds · r _) m.threads).trans
      Array.map_setIfInBounds.symm }

theorem newGenerator_fst (gen : Generator) : (h'.newGenerator gen).1 = (h.newGenerator gen).1 :=
  congrArg Array.size m.generators

theorem newGenerator (gen : Generator) :
    Heap.Mirrors π g (h.newGenerator gen).2 (h'.newGenerator gen).2 :=
  { m with generators := congrArg (·.push gen) m.generators }

theorem setGenerator (r : Nat) (gen : Generator) :
    Heap.Mirrors π g (h.setGenerator r gen) (h'.setGenerator r gen) :=
  { m with generators := congrArg (·.setIfInBounds r gen) m.generators }

end Heap.Mirrors

namespace Store.Mirrors

variable {s s' : Store} (m : s.Mirrors π s')
include m

theorem withHeap {h h' : Heap} (hheap : h.Mirrors π s.globals h') :
    Store.Mirrors π { s with heap := h } { s' with heap := h' } :=
  { m with heap := hheap }

theorem withDepth (d : Depth) : Store.Mirrors π { s with depth := d } { s' with depth := d } :=
  { m with depth := rfl }

theorem switch {h h' : Heap} (hheap : h.Mirrors π s.globals h') (running : Option Nat) (d : Depth) :
    Store.Mirrors π { s with heap := h, running := running, depth := d }
      { s' with heap := h', running := running, depth := d } :=
  { m with heap := hheap, running := rfl, depth := rfl }

theorem report (record : LogRecord) :
    Store.Mirrors π { s with log := record :: s.log } { s' with log := record :: s'.log } :=
  { m with log := congrArg (record :: ·) m.log }

/-! Metamethods. -/

theorem metatable? (v : Value) : s'.metatable? (v.moved π) = s.metatable? v := by
  cases v with
  | table r => exact m.heap.metatable r
  | string b => exact m.stringMeta
  | _ => rfl

theorem metamethod (v : Value) (event : Bytes) :
    s'.metamethod (v.moved π) event = (s.metamethod v event).moved π := by
  unfold Store.metamethod
  rw [m.metatable?]
  split
  · exact m.heap.get _ (.string event)
  · rfl

theorem metamethodOf (event : Bytes) (a b : Value) :
    s'.metamethodOf event (a.moved π) (b.moved π) = (s.metamethodOf event a b).moved π := by
  unfold Store.metamethodOf
  rw [m.metamethod a]
  cases s.metamethod a event with
  | nil => exact m.metamethod b event
  | _ => rfl

end Store.Mirrors

end Pagewright.Script
