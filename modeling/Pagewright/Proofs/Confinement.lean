import Pagewright.Proofs.Visibility
import Pagewright.Script.Library

/-! Stores in which the globals stay as they are: environments fall through to them, and the table of
globals itself is out of reach, or at least not changed. -/
namespace Pagewright.Script

open Library (stringMeta)

def selfName : Value := Value.ofText "_G"

def fallThrough : Table := (Table.withRoom 0 1).set (.string Event.index) (.table 0)

def stringMethods : Table := Table.empty.set (.string Event.index) (.table 1)

/-- The globals, and whether scripts are kept from getting hold of their table. -/
structure Globals where
  table : Table
  hidden : Bool

/-- A set of tables can be reached, and the globals are as they were. -/
structure Confined (g : Globals) (w : Set Nat) (s : Store) : Prop where
  globals : s.globals = 0
  strings : s.stringMeta = some stringMeta
  globals_hidden : 0 ∈ w ↔ g.hidden = false
  strings_hidden : stringMeta ∉ w
  string_library : 1 ∈ w
  room : stringMeta < s.heap.tables.size
  bounded : ∀ r ∈ w, r < s.heap.tables.size
  globals_kept : s.heap.table 0 = g.table
  strings_kept : s.heap.table stringMeta = stringMethods
  globals_plain : g.table.metatable = none
  /-- The globals hold themselves under one name alone. -/
  globals_self : (g.table.get selfName).Within (insert 0 w)
  globals_open : ∀ k, k ≠ selfName → (g.table.get k).Within w
  contents : ∀ r ∈ w, (s.heap.table r).Within w
  /-- Only environments have a metatable. -/
  environments : ∀ r ∈ w, ∀ m, (s.heap.table r).metatable = some m →
    r ≠ 1 ∧ m ∉ w ∧ m < s.heap.tables.size ∧ s.heap.table m = fallThrough
  cells : ∀ v ∈ s.heap.cells, v.Within w
  threads : ∀ t ∈ s.heap.threads, t.Within w
  main_thread : s.heap.threads[0]? = some .running

/-- Whether an environment is asked for its own name, under which it no longer holds anything. -/
def Heap.asksLostName (h : Heap) (object key : Value) : Bool :=
  match object with
  | .table r => key.normalKey = selfName && (h.table r).metatable.isSome
    && (h.table r).get selfName = .nil
  | _ => false

variable {g : Globals} {w : Set Nat} {s : Store}

/-! The tables of a heap. -/

theorem Heap.table_modify (h : Heap) (r r' : Nat) (f : Table → Table) :
    (h.tables.modify r f).getD r' Table.empty =
      if r = r' ∧ r < h.tables.size then f (h.table r') else h.table r' := by
  unfold Heap.table
  rw [Array.getD_eq_getD_getElem?, Array.getD_eq_getD_getElem?, Array.getElem?_modify]
  by_cases hr : r = r'
  · subst hr
    by_cases hsize : r < h.tables.size
    · simp [hsize]
    · simp [hsize]
  · simp [hr]

@[simp] theorem Heap.table_newTable (h : Heap) (t : Table) (r : Nat) :
    (h.newTable t).2.table r = if r = h.tables.size then t else h.table r := by
  change (h.tables.push t).getD r Table.empty = _
  unfold Heap.table
  rw [Array.getD_eq_getD_getElem?, Array.getD_eq_getD_getElem?, Array.getElem?_push]
  split <;> rfl

@[simp] theorem Heap.size_newTable (h : Heap) (t : Table) :
    (h.newTable t).2.tables.size = h.tables.size + 1 :=
  Array.size_push t

@[simp] theorem Heap.size_setField (h : Heap) (r : Nat) (k v : Value) :
    (h.setField r k v).tables.size = h.tables.size := Array.size_modify

theorem Heap.table_setField (h : Heap) {r : Nat} (hr : r < h.tables.size) (k v : Value) (r' : Nat) :
    (h.setField r k v).table r' = if r' = r then (h.table r).set k v else h.table r' := by
  change (h.tables.modify r fun t => t.set k v).getD r' Table.empty = _
  rw [Heap.table_modify]
  by_cases heq : r' = r
  · rw [if_pos ⟨heq.symm, hr⟩, if_pos heq, heq]
  · rw [if_neg fun h => heq h.1.symm, if_neg heq]

/-! What changes a confined store leaves confined. -/

theorem Confined.other (h : Confined g w s) {s' : Store} (hglobals : s'.globals = s.globals)
    (hstrings : s'.stringMeta = s.stringMeta) (htables : s'.heap.tables = s.heap.tables)
    (hcells : ∀ v ∈ s'.heap.cells, v.Within w) (hthreads : ∀ t ∈ s'.heap.threads, t.Within w)
    (hmain : s'.heap.threads[0]? = some .running) : Confined g w s' := by
  have htable (r : Nat) : s'.heap.table r = s.heap.table r := by
    unfold Heap.table
    rw [htables]
  constructor
  case globals => rw [hglobals, h.globals]
  case strings => rw [hstrings, h.strings]
  case room => rw [htables]; exact h.room
  case bounded => rw [htables]; exact h.bounded
  case globals_kept => rw [htable, h.globals_kept]
  case strings_kept => rw [htable, h.strings_kept]
  case contents => simpa only [htable] using h.contents
  case environments => simpa only [htable, htables] using h.environments
  case cells => exact hcells
  case threads => exact hthreads
  case main_thread => exact hmain
  all_goals cases h; assumption

theorem Confined.depth (h : Confined g w s) (d : Depth) : Confined g w { s with depth := d } :=
  h.other rfl rfl rfl h.cells h.threads h.main_thread

theorem Confined.switch (h : Confined g w s) (d : Depth) (running : Option Nat) :
    Confined g w { s with depth := d, running := running } :=
  h.other rfl rfl rfl h.cells h.threads h.main_thread

theorem Confined.thread_within (h : Confined g w s) (t : Nat) :
    (s.heap.threads.getD t .dead).Within w := by
  rw [Array.getD_eq_getD_getElem?]
  cases ht : s.heap.threads[t]? with
  | none => trivial
  | some th => exact h.threads th (Array.mem_of_getElem? ht)

theorem Confined.ne_zero_of_not_running (h : Confined g w s) {t : Nat}
    (ht : s.heap.threads.getD t .dead ≠ .running) : t ≠ 0 := by
  rintro rfl
  rw [Array.getD_eq_getD_getElem?, h.main_thread] at ht
  exact ht rfl

theorem Confined.newCell (h : Confined g w s) {v : Value} (hv : v.Within w) :
    Confined g w { s with heap := (s.heap.newCell v).2 } := by
  refine h.other rfl rfl rfl (fun v' hv' => ?_) h.threads h.main_thread
  rcases Array.mem_push.mp hv' with hv' | rfl
  · exact h.cells v' hv'
  · exact hv

theorem Confined.setCell (h : Confined g w s) {v : Value} (hv : v.Within w) (r : Nat) :
    Confined g w { s with heap := s.heap.setCell r v } :=
  h.other rfl rfl rfl (Table.setIfInBounds_all h.cells hv r) h.threads h.main_thread

theorem Confined.newCells (h : Confined g w s) {vs : List Value} (hvs : AllWithin w vs) :
    Confined g w { s with heap := (s.heap.newCells vs).2 } := by
  unfold Heap.newCells
  refine List.foldlRecOn
    (motive := fun p : List Nat × Heap => Confined g w { s with heap := p.2 }) _ _ h ?_
  intro p hp v hv
  exact hp.newCell (hvs v hv)

theorem Confined.newClosure (h : Confined g w s) (c : Closure) :
    Confined g w { s with heap := (s.heap.newClosure c).2 } :=
  h.other rfl rfl rfl h.cells h.threads h.main_thread

theorem Confined.newGenerator (h : Confined g w s) (f : Generator) :
    Confined g w { s with heap := (s.heap.newGenerator f).2 } :=
  h.other rfl rfl rfl h.cells h.threads h.main_thread

theorem Confined.setGenerator (h : Confined g w s) (r : Nat) (f : Generator) :
    Confined g w { s with heap := s.heap.setGenerator r f } :=
  h.other rfl rfl rfl h.cells h.threads h.main_thread

theorem Confined.newThread (h : Confined g w s) {t : Thread} (ht : t.Within w) :
    Confined g w { s with heap := (s.heap.newThread t).2 } := by
  refine h.other rfl rfl rfl h.cells (fun t' ht' => ?_) ?_
  · rcases Array.mem_push.mp ht' with ht' | rfl
    · exact h.threads t' ht'
    · exact ht
  · have hpos : 0 < s.heap.threads.size := (Array.getElem?_eq_some_iff.mp h.main_thread).1
    change (s.heap.threads.push t)[0]? = some .running
    rw [Array.getElem?_push, if_neg (by omega), h.main_thread]

theorem Confined.setThread (h : Confined g w s) {t : Thread} (ht : t.Within w) {r : Nat}
    (hr : r ≠ 0) : Confined g w { s with heap := s.heap.setThread r t } := by
  refine h.other rfl rfl rfl h.cells (Table.setIfInBounds_all h.threads ht r) ?_
  change (s.heap.threads.setIfInBounds r t)[0]? = some .running
  rw [Array.getElem?_setIfInBounds_ne hr, h.main_thread]

theorem Confined.modify (h : Confined g w s) {r : Nat} (hr : r ∈ w \ {0}) {f : Table → Table}
    (hf : (f (s.heap.table r)).Within w)
    (hmeta : ∀ m, (f (s.heap.table r)).metatable = some m →
      r ≠ 1 ∧ m ∉ w ∧ m < s.heap.tables.size ∧ s.heap.table m = fallThrough) :
    Confined g w { s with heap := { s.heap with tables := s.heap.tables.modify r f } } := by
  have htable (r' : Nat) :
      Heap.table { s.heap with tables := s.heap.tables.modify r f } r' =
        if r = r' ∧ r < s.heap.tables.size then f (s.heap.table r') else s.heap.table r' :=
    Heap.table_modify s.heap r r' f
  have hkept {m : Nat} (hm : m ∉ w \ {0}) :
      Heap.table { s.heap with tables := s.heap.tables.modify r f } m = s.heap.table m := by
    have hne : ¬(r = m ∧ r < s.heap.tables.size) := fun heq => hm (heq.1 ▸ hr)
    rw [htable, if_neg hne]
  have hsize : (s.heap.tables.modify r f).size = s.heap.tables.size := Array.size_modify
  constructor
  case room => exact hsize ▸ h.room
  case bounded => exact fun r' hr' => hsize ▸ h.bounded r' hr'
  case globals_kept => rw [hkept fun hm => hm.2 rfl, h.globals_kept]
  case strings_kept => rw [hkept fun hm => h.strings_hidden hm.1, h.strings_kept]
  case contents =>
      intro r' hr'
      rw [htable]
      split
      · rename_i heq
        exact heq.1 ▸ hf
      · exact h.contents r' hr'
  case environments =>
      intro r' hr' m hm
      have hm' : r' ≠ 1 ∧ m ∉ w ∧ m < s.heap.tables.size ∧ s.heap.table m = fallThrough := by
        rw [htable] at hm
        split at hm
        · rename_i heq
          exact heq.1 ▸ hmeta m (heq.1 ▸ hm)
        · exact h.environments r' hr' m hm
      obtain ⟨hne, hmw, hmsize, hmtable⟩ := hm'
      exact ⟨hne, hmw, hsize ▸ hmsize, by rw [hkept fun hm => hmw hm.1, hmtable]⟩
  all_goals cases h; assumption

theorem Confined.setField (h : Confined g w s) {r : Nat} (hr : r ∈ w \ {0}) {k v : Value}
    (hk : k.Within w) (hv : v.Within w) :
    Confined g w { s with heap := s.heap.setField r k v } :=
  h.modify hr ((h.contents r hr.1).set hk hv) (by
    rw [Table.set_metatable]
    exact h.environments r hr.1)

theorem Confined.storeItems (h : Confined g w s) {r : Nat} (hr : r ∈ w \ {0}) {vs : List Value}
    (hvs : AllWithin w vs) (n : Nat) :
    Confined g w { s with heap := { s.heap with
      tables := s.heap.tables.modify r fun t => t.storeItems n vs } } :=
  h.modify hr ((h.contents r hr.1).storeItems hvs n) (by
    rw [Table.storeItems_metatable]
    exact h.environments r hr.1)

theorem Confined.push (h : Confined g w s) {w' : Set Nat} {t : Table} (hw : w ⊆ w')
    (hnew : ∀ r ∈ w', r = s.heap.tables.size ∨ r ∈ w) (ht : s.heap.tables.size ∈ w' → t.Within w')
    (hmeta : t.metatable = none) :
    Confined g w' { s with heap := (s.heap.newTable t).2 } := by
  have htable := s.heap.table_newTable t
  have hold {r : Nat} (hr : r < s.heap.tables.size) :
      (s.heap.newTable t).2.table r = s.heap.table r := by rw [htable, if_neg (by omega)]
  have hsize := s.heap.size_newTable t
  have hhidden {r : Nat} (hr : r < s.heap.tables.size) (hrw : r ∉ w) : r ∉ w' := by
    intro hmem
    rcases hnew r hmem with heq | hmem
    · omega
    · exact hrw hmem
  have hroom := h.room
  constructor
  case globals => exact h.globals
  case strings => exact h.strings
  case globals_hidden =>
      rw [← h.globals_hidden]
      exact ⟨fun h0 => by_contra fun hne => hhidden (by omega) hne h0, fun h0 => hw h0⟩
  case strings_hidden => exact hhidden h.room h.strings_hidden
  case string_library => exact hw h.string_library
  case room => rw [hsize]; omega
  case bounded =>
      intro r hr
      rw [hsize]
      rcases hnew r hr with rfl | hr
      · omega
      · exact Nat.lt_succ_of_lt (h.bounded r hr)
  case globals_kept => rw [hold (by omega), h.globals_kept]
  case strings_kept => rw [hold h.room, h.strings_kept]
  case globals_plain => exact h.globals_plain
  case globals_self => exact h.globals_self.mono (Set.insert_subset_insert hw)
  case globals_open => exact fun k hk => (h.globals_open k hk).mono hw
  case contents =>
      intro r hr
      rcases hnew r hr with rfl | hr'
      · rw [htable, if_pos rfl]
        exact ht hr
      · rw [hold (h.bounded r hr')]
        exact (h.contents r hr').mono hw
  case environments =>
      intro r hr m hm
      rcases hnew r hr with rfl | hr
      · rw [htable, if_pos rfl, hmeta] at hm
        cases hm
      · rw [hold (h.bounded r hr)] at hm
        obtain ⟨hne, hmw, hmsize, hmtable⟩ := h.environments r hr m hm
        exact ⟨hne, hhidden hmsize hmw, by rw [hsize]; omega, by rw [hold hmsize, hmtable]⟩
  case cells => exact fun v hv => (h.cells v hv).mono hw
  case threads => exact fun t ht => (h.threads t ht).mono hw
  case main_thread => exact h.main_thread

theorem Confined.new_changeable (h : Confined g w s) :
    s.heap.tables.size ∈ insert s.heap.tables.size w \ {0} :=
  ⟨Set.mem_insert _ _, (Nat.zero_lt_of_lt h.room).ne'⟩

theorem Confined.newTable (h : Confined g w s) {t : Table} (ht : t.Within w)
    (hmeta : t.metatable = none) :
    Confined g (insert s.heap.tables.size w) { s with heap := (s.heap.newTable t).2 } :=
  h.push (Set.subset_insert _ _) (fun _ hr => hr) (fun _ => ht.mono (Set.subset_insert _ _)) hmeta

theorem Confined.newHidden (h : Confined g w s) {t : Table} (hmeta : t.metatable = none) :
    Confined g w { s with heap := (s.heap.newTable t).2 } :=
  h.push subset_rfl (fun _ hr => Or.inr hr)
    (fun hr => absurd (h.bounded _ hr) (Nat.lt_irrefl _)) hmeta

end Pagewright.Script
