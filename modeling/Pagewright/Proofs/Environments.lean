import Pagewright.Proofs.Confinement
import Pagewright.Proofs.TableEntries
import Pagewright.Script.Chunk

/-!
Environments in a heap. What an environment holds under a name hides what the globals hold there; to
look a name up asks both, to store under it changes the environment's own table alone.
-/
namespace Pagewright.Script

def selfBytes : Bytes := Bytes.ofText "_G"

def fallsTo (globals : Nat) : Table :=
  (Table.withRoom 0 1).set (.string Event.index) (.table globals)

def newOverlay (r : Nat) : Table :=
  { Table.withRoom 0 1 with metatable := some (r + 1) }.set selfName (.table r)

def selfAlone (r : Nat) (name : Bytes) : Value := if name = selfBytes then .table r else .nil

namespace Heap

variable {h h' : Heap} {globals r : Nat} {own : Bytes → Value}

/-- A table is an environment over some globals, with values of its own under names. -/
structure Overlay (h : Heap) (globals r : Nat) (own : Bytes → Value) : Prop where
  /-- Its metatable follows it. -/
  room : r + 1 < h.tables.size
  linked : (h.table r).metatable = some (r + 1)
  falls : h.table (r + 1) = fallsTo globals
  once : Table.StringsOnce (h.table r).others
  holds : ∀ name, (h.table r).get (.string name) = own name

/-! New environments. -/

theorem newEnvironment_snd (h : Heap) (globals : Nat) :
    (h.newEnvironment globals).2 =
      (((h.newTable (Table.withRoom 0 1)).2.newTable (fallsTo globals)).2.setMetatable
        h.tables.size (some (h.tables.size + 1))).setField h.tables.size selfName
        (.table h.tables.size) := by
  rw [← h.size_newTable (Table.withRoom 0 1)]
  rfl

@[simp] theorem size_newEnvironment (h : Heap) (globals : Nat) :
    (h.newEnvironment globals).2.tables.size = h.tables.size + 2 := by
  rw [newEnvironment_snd, setField, setMetatable, Array.size_modify, Array.size_modify,
    size_newTable, size_newTable]

theorem table_newEnvironment (h : Heap) (globals r : Nat) :
    (h.newEnvironment globals).2.table r =
      if r = h.tables.size then newOverlay r
      else if r = h.tables.size + 1 then fallsTo globals
      else h.table r := by
  have hmade (r : Nat) : ((h.newTable (Table.withRoom 0 1)).2.newTable (fallsTo globals)).2.table r =
      if r = h.tables.size + 1 then fallsTo globals
      else if r = h.tables.size then Table.withRoom 0 1 else h.table r := by
    rw [table_newTable, size_newTable, table_newTable]
  have hroom : h.tables.size <
      ((h.newTable (Table.withRoom 0 1)).2.newTable (fallsTo globals)).2.tables.size := by
    rw [size_newTable, size_newTable]
    omega
  rw [newEnvironment_snd]
  generalize ((h.newTable (Table.withRoom 0 1)).2.newTable (fallsTo globals)).2 = made
    at hmade hroom ⊢
  have hlinked (r : Nat) : (made.setMetatable h.tables.size (some (h.tables.size + 1))).table r =
      if h.tables.size = r then { made.table r with metatable := some (h.tables.size + 1) }
      else made.table r := by
    rw [table, setMetatable, table_modify]
    simp only [hroom, and_true]
  rw [table, setField, table_modify, setMetatable, Array.size_modify]
  simp only [hroom, and_true]
  change (if h.tables.size = r
    then ((made.setMetatable h.tables.size (some (h.tables.size + 1))).table r).set _ _
    else (made.setMetatable h.tables.size (some (h.tables.size + 1))).table r) = _
  rw [hlinked, hmade]
  by_cases hr : h.tables.size = r
  · subst hr
    simp [newOverlay]
  · simp [hr, Ne.symm hr]

@[simp] private theorem newOverlay_get (r : Nat) (name : Bytes) :
    (newOverlay r).get (.string name) = selfAlone r name := by
  unfold newOverlay selfAlone
  split
  · next hself =>
    subst hself
    exact Table.set_get_string_self _ _
  · next hself =>
    exact Table.set_get_string_of_ne (Table.Built.metatable _ (.withRoom 0 1)).stringsOnce
      (fun heq => hself (Value.string.inj heq).symm) _

theorem overlay_newEnvironment (h : Heap) (globals : Nat) :
    (h.newEnvironment globals).2.Overlay globals h.tables.size (selfAlone h.tables.size) := by
  have htable : (h.newEnvironment globals).2.table h.tables.size = newOverlay h.tables.size := by
    rw [table_newEnvironment, if_pos rfl]
  constructor
  case room => rw [size_newEnvironment]; omega
  case linked => rw [htable, newOverlay, Table.set_metatable]
  case falls => rw [table_newEnvironment, if_neg (by omega), if_pos rfl]
  case once => rw [htable]; exact (Table.Built.set _ _ (.metatable _ (.withRoom 0 1))).stringsOnce
  case holds => rw [htable]; exact newOverlay_get _

/-! What keeps an environment, and what changes it. -/

theorem Overlay.of_same (ho : h.Overlay globals r own) (hroom : h.tables.size ≤ h'.tables.size)
    (htable : h'.table r = h.table r) (hmeta : h'.table (r + 1) = h.table (r + 1)) :
    h'.Overlay globals r own := by
  constructor
  case room => exact Nat.lt_of_lt_of_le ho.room hroom
  case linked => rw [htable, ho.linked]
  case falls => rw [hmeta, ho.falls]
  case once => rw [htable]; exact ho.once
  case holds => rw [htable]; exact ho.holds

theorem table_setField_of_ne (h : Heap) {r r' : Nat} (hne : r ≠ r') (k v : Value) :
    (h.setField r k v).table r' = h.table r' :=
  (table_modify h r r' _).trans (if_neg fun heq => hne heq.1)

theorem Overlay.table_setField (ho : h.Overlay globals r own) (k v : Value) :
    (h.setField r k v).table r = (h.table r).set k v :=
  (h.table_setField (Nat.lt_of_succ_lt ho.room) k v r).trans (if_pos rfl)

theorem Overlay.setField (ho : h.Overlay globals r own) (name : Bytes) (v : Value) :
    (h.setField r (.string name) v).Overlay globals r (Function.update own name v) := by
  have htable := ho.table_setField (.string name) v
  have hmeta : (h.setField r (.string name) v).table (r + 1) = h.table (r + 1) :=
    h.table_setField_of_ne (Nat.ne_of_lt (Nat.lt_succ_self r)) _ _
  constructor
  case room => rw [size_setField]; exact ho.room
  case linked => rw [htable, Table.set_metatable, ho.linked]
  case falls => rw [hmeta, ho.falls]
  case once => rw [htable]; exact Table.stringsOnce_set ho.once _ _
  case holds =>
      intro name'
      rw [htable]
      by_cases hname : name' = name
      · subst hname
        rw [Table.set_get_string_self, Function.update_self]
      · rw [Table.set_get_string_of_ne ho.once fun heq => hname (Value.string.inj heq).symm,
          ho.holds, Function.update_of_ne hname]

end Heap

/-! Names in an environment. -/

@[simp] private theorem fallsTo_get (globals : Nat) (event : Bytes) :
    (fallsTo globals).get (.string event) =
      if event = Event.index then .table globals else .nil := by
  unfold fallsTo
  split
  · next hevent => rw [hevent, Table.set_get_string_self]
  · next hevent =>
    exact Table.set_get_string_of_ne (Table.Built.withRoom 0 1).stringsOnce
      (fun heq => hevent (Value.string.inj heq).symm) _

def Value.orElse (v other : Value) : Value :=
  match v with
  | .nil => other
  | v => v

variable {s : Store} {globals r : Nat} {own : Bytes → Value}

theorem Store.metamethod_overlay (ho : s.heap.Overlay globals r own) (event : Bytes) :
    s.metamethod (.table r) event = if event = Event.index then .table globals else .nil := by
  unfold Store.metamethod Store.metatable?
  dsimp only
  rw [ho.linked]
  dsimp only
  rw [ho.falls, fallsTo_get]

private theorem index_plain {object : Nat} (hplain : (s.heap.table object).metatable = none)
    (fuel : Nat) (name : Bytes) : index s (fuel + 1) (.table object) (.string name) =
      .value ((s.heap.table object).get (.string name)) := by
  have hnone : s.metamethod (.table object) Event.index = .nil := by
    unfold Store.metamethod Store.metatable?
    dsimp only
    rw [hplain]
  rw [index]
  dsimp only [Value.normalKey]
  split
  · next hnil => rw [hnone, hnil]
  · rfl

theorem index_overlay (ho : s.heap.Overlay globals r own)
    (hplain : (s.heap.table globals).metatable = none) (name : Bytes) :
    index s longestChain (.table r) (.string name) =
      .value ((own name).orElse ((s.heap.table globals).get (.string name))) := by
  rw [show longestChain = 1998 + 1 + 1 from rfl, index]
  dsimp only [Value.normalKey]
  rw [ho.holds]
  cases hown : own name with
  | nil =>
    rw [s.metamethod_overlay ho, if_pos rfl]
    exact index_plain hplain 1998 name
  | _ => rfl

theorem storing_overlay (ho : s.heap.Overlay globals r own) (name : Bytes) (v : Value) :
    storing s longestChain (.table r) (.string name) v = .field r (.string name) := by
  rw [show longestChain = 1999 + 1 from rfl, storing]
  dsimp only [Value.normalKey]
  rw [s.metamethod_overlay ho, if_neg (by decide)]
  split <;> rfl

/-! Chunks in an environment. -/

def Store.loaded (s : Store) (env : Value) (f : Function) (chunk : Bytes) : Store :=
  { s with heap := ((s.heap.newCell env).2.newClosure ⟨f, [s.heap.cells.size], chunk⟩).2 }

@[simp] theorem Store.loaded_cell (s : Store) (env : Value) (f : Function) (chunk : Bytes) :
    (s.loaded env f chunk).heap.cells.getD s.heap.cells.size .nil = env := by
  change (s.heap.cells.push env).getD s.heap.cells.size .nil = env
  simp

@[simp] theorem Store.loaded_closure (s : Store) (env : Value) (f : Function) (chunk : Bytes) :
    (s.loaded env f chunk).heap.closures.getD s.heap.closures.size default =
      ⟨f, [s.heap.cells.size], chunk⟩ := by
  change (s.heap.closures.push _).getD s.heap.closures.size default = _
  simp

end Pagewright.Script
