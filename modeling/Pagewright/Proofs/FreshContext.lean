import Mathlib.Order.Interval.Set.Basic
import Mathlib.Tactic.IntervalCases
import Pagewright.Page.Context
import Pagewright.Proofs.Confinement

/-! The heap that contexts start from: what its tables hold, and that it is what is left of a heap in
which the first tables have stayed as they were. -/
namespace Pagewright.Script

/-! Values that refer to nothing in a heap. -/

/-- Whether a value means the same in every heap. -/
def Value.Plain : Value → Prop
  | .table _ | .closure _ | .thread _ | .generator _ => False
  | _ => True

theorem Value.Plain.within {v : Value} (h : v.Plain) (w : Set Nat) : v.Within w := by
  cases v with
  | table r => exact absurd h id
  | _ => trivial

theorem Value.Plain.covered {v : Value} (h : v.Plain) (m : Page.HeapMark) : m.covers v := by
  cases v with
  | table r => exact absurd h id
  | closure r => exact absurd h id
  | thread r => exact absurd h id
  | generator r => exact absurd h id
  | _ => rfl

namespace Library

variable {P : Value → Value → Prop}

/-! Tables of functions and constants. -/

theorem withFields_all (hP : Table.Uniform P) {t : Table} (h : t.All P)
    {fields : List (String × Value)} (hfields : ∀ p ∈ fields, P (Value.ofText p.1) p.2) :
    (withFields t fields).All P :=
  List.foldlRecOn fields _ h fun _ ht p hp => ht.set hP (hfields p hp)

@[simp] theorem withFields_metatable (t : Table) (fields : List (String × Value)) :
    (withFields t fields).metatable = t.metatable :=
  List.foldlRecOn (motive := fun t' : Table => t'.metatable = t.metatable) fields _ rfl
    fun t' ht p _ => (t'.set_metatable (Value.ofText p.1) p.2).trans ht

private theorem withFields_get {t : Table} {fields : List (String × Value)} {s : Bytes}
    (h : t.get (.string s) ≠ .nil) (hs : ∀ p ∈ fields, Value.ofText p.1 ≠ .string s) :
    (withFields t fields).get (.string s) = t.get (.string s) := by
  refine List.foldlRecOn (motive := fun t' : Table => t'.get (.string s) = t.get (.string s))
    fields _ rfl fun t' ht p hp => ?_
  rw [Table.set_get_string (hs p hp) p.2 (ht ▸ h), ht]

theorem tableOf_all (hP : Table.Uniform P) (hfunctions : ∀ k f, P (Value.ofText k) (.builtin f))
    (functions : List (String × Builtin)) {constants : List (String × Value)}
    (hconstants : ∀ p ∈ constants, P (Value.ofText p.1) p.2) :
    (tableOf functions constants).All P := by
  refine withFields_all hP Table.All.empty fun p hp => ?_
  rcases List.mem_append.mp hp with hp | hp
  · obtain ⟨⟨k, f⟩, _, rfl⟩ := List.mem_map.mp hp
    exact hfunctions k f
  · exact hconstants p hp

@[simp] theorem tableOf_metatable (functions : List (String × Builtin))
    (constants : List (String × Value)) :
    (tableOf functions constants).metatable = none :=
  withFields_metatable _ _

/-! The tables that there are from the start. -/

def PlainEntry (k v : Value) : Prop := k.Plain ∧ v.Plain

@[simp] private theorem uniform_plainEntry : Table.Uniform PlainEntry :=
  ⟨fun _ _ h => ⟨trivial, h.2⟩, trivial, trivial⟩

/-- An entry of the globals. They hold the library tables, and themselves under one name alone. -/
def GlobalEntry (k v : Value) : Prop :=
  k.Plain ∧ (v.Plain ∨ ∃ r, v = .table r ∧ r ≤ 5 ∧ (r = 0 → k = selfName))

@[simp] theorem uniform_globalEntry : Table.Uniform GlobalEntry := by
  refine ⟨fun {i} j {v} h => ⟨trivial, h.2.imp_right ?_⟩, trivial, Or.inl trivial⟩
  rintro ⟨r, hv, hr, hself⟩
  exact ⟨r, hv, hr, fun hzero => absurd (hself hzero) Value.noConfusion⟩

def globalTables : List (String × Value) :=
  [("_G", .table 0), ("_VERSION", Value.ofText "Lua 5.4"), ("string", .table 1),
    ("table", .table 2), ("math", .table 3), ("coroutine", .table 4), ("utf8", .table 5)]

variable (more : List (String × Value))

theorem heap_tables : (heap more).tables =
    #[withFields (tableOf Builtin.globals globalTables) more, tableOf Builtin.stringLibrary [],
      tableOf Builtin.tableLibrary [], tableOf Builtin.mathLibrary mathConstants,
      tableOf Builtin.coroutineLibrary [],
      tableOf Builtin.utf8Library [("charpattern", .string characterPattern)], stringMethods] := by
  unfold heap
  rfl

@[simp] theorem heap_table_globals :
    (heap more).table 0 = withFields (tableOf Builtin.globals globalTables) more := by
  unfold Heap.table
  rw [heap_tables]
  rfl

variable {more} in
theorem heap_globals (hmore : ∀ p ∈ more, p.2.Plain) :
    ((heap more).table 0).All GlobalEntry := by
  have hplain (k : String) {v : Value} (h : v.Plain) : GlobalEntry (Value.ofText k) v :=
    ⟨trivial, Or.inl h⟩
  have htable (k : String) {r : Nat} (hr : r ∈ Set.Icc 1 5) :
      GlobalEntry (Value.ofText k) (.table r) :=
    ⟨trivial, Or.inr ⟨r, rfl, hr.2, fun h => absurd (h ▸ hr.1) (by decide)⟩⟩
  have hself : GlobalEntry (Value.ofText "_G") (.table 0) :=
    ⟨trivial, Or.inr ⟨0, rfl, Nat.zero_le 5, fun _ => rfl⟩⟩
  rw [heap_table_globals]
  refine withFields_all uniform_globalEntry ?_ fun p hp => hplain p.1 (hmore p hp)
  refine tableOf_all uniform_globalEntry (fun k f => hplain k (v := .builtin f) trivial) _ ?_
  rw [globalTables, List.forall_mem_cons, List.forall_mem_cons]
  refine ⟨hself, hplain "_VERSION" (v := Value.ofText "Lua 5.4") trivial, fun p hp => ?_⟩
  obtain ⟨k, r, hr, rfl⟩ : ∃ k r, r ∈ Set.Icc 1 5 ∧ p = (k, .table r) := by
    simp only [List.mem_cons, List.not_mem_nil, or_false] at hp
    rcases hp with rfl | rfl | rfl | rfl | rfl
    all_goals exact ⟨_, _, by decide, rfl⟩
  exact htable k hr

@[simp] theorem heap_globals_metatable : ((heap more).table 0).metatable = none := by
  rw [heap_table_globals, withFields_metatable, tableOf_metatable]

private theorem mathConstants_plain : ∀ p ∈ mathConstants, p.2.Plain := by
  simp [mathConstants, Value.Plain]

private theorem heap_table_library {r : Nat} (hr : r ∈ Set.Icc 1 5) :
    ∃ functions constants, (heap more).table r = tableOf functions constants ∧
      ∀ p ∈ constants, p.2.Plain := by
  have hnone : ∀ p ∈ ([] : List (String × Value)), p.2.Plain :=
    fun _ hp => absurd hp List.not_mem_nil
  obtain ⟨hfirst, hlast⟩ := hr
  unfold Heap.table
  rw [heap_tables]
  interval_cases r
  · exact ⟨Builtin.stringLibrary, [], rfl, hnone⟩
  · exact ⟨Builtin.tableLibrary, [], rfl, hnone⟩
  · exact ⟨Builtin.mathLibrary, mathConstants, rfl, mathConstants_plain⟩
  · exact ⟨Builtin.coroutineLibrary, [], rfl, hnone⟩
  · exact ⟨Builtin.utf8Library, [("charpattern", .string characterPattern)], rfl,
      List.forall_mem_singleton.mpr trivial⟩

theorem heap_library {r : Nat} (hr : r ∈ Set.Icc 1 5) :
    ((heap more).table r).All PlainEntry ∧ ((heap more).table r).metatable = none := by
  obtain ⟨functions, constants, htable, hconstants⟩ := heap_table_library more hr
  rw [htable]
  refine ⟨?_, tableOf_metatable _ _⟩
  exact tableOf_all uniform_plainEntry (fun _ _ => ⟨trivial, trivial⟩) _
    fun p hp => ⟨trivial, hconstants p hp⟩

@[simp] theorem heap_strings : (heap more).table stringMeta = stringMethods := by
  unfold Heap.table
  rw [heap_tables]
  rfl

@[simp] theorem heap_size : (heap more).tables.size = 7 := by
  rw [heap_tables]
  rfl

end Library

end Pagewright.Script

namespace Pagewright.Page

open Script Script.Library

variable {registry : Markup.Registry}

/-! Fresh contexts. -/

def globalsOf (registry : Markup.Registry) : Table := (Context.ofRegistry registry).heap.table 0

def tagsOf (registry : Markup.Registry) : List (String × Value) :=
  registry.bindings.zipIdx.map fun ((name, _), i) => (name, Value.hosted i)

@[simp] theorem heap_ofRegistry :
    (Context.ofRegistry registry).heap = Library.heap (tagsOf registry) := rfl

theorem tagsOf_plain (registry : Markup.Registry) : ∀ p ∈ tagsOf registry, p.2.Plain := by
  intro p hp
  obtain ⟨⟨⟨name, b⟩, i⟩, _, rfl⟩ := List.mem_map.mp hp
  trivial

theorem globalsOf_self (h : ∀ b ∈ registry.bindings, Value.ofText b.1 ≠ selfName) :
    (globalsOf registry).get selfName = .table 0 := by
  have hfirst : (tableOf Builtin.globals globalTables).get selfName = .table 0 := by
    decide +kernel
  have hmore : ∀ p ∈ tagsOf registry, Value.ofText p.1 ≠ selfName := by
    intro p hp
    obtain ⟨⟨b, i⟩, hb, rfl⟩ := List.mem_map.mp hp
    exact h b (List.fst_mem_of_mem_zipIdx hb)
  unfold globalsOf
  rw [heap_ofRegistry, heap_table_globals]
  refine (withFields_get ?_ hmore).trans hfirst
  exact fun hnil => Value.noConfusion (hfirst.symm.trans hnil)

def reachable (hidden : Bool) : Set Nat := {r | r ≤ 5 ∧ (r = 0 → hidden = false)}

theorem GlobalEntry.within {k v : Value} (h : GlobalEntry k v) {w : Set Nat}
    (hw : ∀ r ≤ 5, (r = 0 → k = selfName) → r ∈ w) : v.Within w := by
  rcases h.2 with hplain | ⟨r, rfl, hle, hself⟩
  · exact hplain.within w
  · exact hw r hle hself

theorem ofRegistry_confined (registry : Markup.Registry) (files : Files) (hidden : Bool) :
    Confined ⟨globalsOf registry, hidden⟩ (reachable hidden)
      ((Context.ofRegistry registry).store files) := by
  have hglobals := heap_globals (tagsOf_plain registry)
  have hget (k : Value) {w : Set Nat} (hw : ∀ r ≤ 5, (r = 0 → k = selfName) → r ∈ w) :
      ((globalsOf registry).get k).Within w := by
    rcases hglobals.get uniform_globalEntry k with hnil | hentry
    · exact (congrArg (Value.Within w) hnil).mpr trivial
    · exact GlobalEntry.within hentry hw
  have hroom {r : Nat} (hr : r ≤ 6) : r < (Context.ofRegistry registry).heap.tables.size :=
    Nat.lt_of_lt_of_eq (Nat.lt_succ_of_le hr) (heap_size _).symm
  have hlibrary {r : Nat} (hr : r ≤ 5) (hne : r ≠ 0) : r ∈ Set.Icc 1 5 :=
    ⟨Nat.one_le_iff_ne_zero.mpr hne, hr⟩
  constructor
  case globals => rfl
  case strings => rfl
  case globals_hidden => exact ⟨fun h => h.2 rfl, fun h => ⟨Nat.zero_le 5, fun _ => h⟩⟩
  case strings_hidden => exact fun h => absurd h.1 (by decide)
  case string_library => exact ⟨by decide, fun h => absurd h (by decide)⟩
  case room => exact hroom (Nat.le_refl 6)
  case bounded => exact fun r hr => hroom (Nat.le_succ_of_le hr.1)
  case globals_kept => rfl
  case strings_kept => exact heap_strings _
  case globals_plain => exact heap_globals_metatable _
  case globals_self =>
      refine hget selfName fun r hr _ => ?_
      rcases Nat.eq_zero_or_pos r with rfl | hpos
      · exact Set.mem_insert 0 _
      · exact Set.mem_insert_of_mem 0 ⟨hr, fun h => absurd h hpos.ne'⟩
  case globals_open =>
      exact fun k hk => hget k fun r hr hself => ⟨hr, fun hzero => absurd (hself hzero) hk⟩
  case contents =>
      rintro r ⟨hle, hshown⟩
      rcases Nat.eq_zero_or_pos r with rfl | hpos
      · refine hglobals.mono fun k v h => ⟨h.1.within _, GlobalEntry.within h fun r hr _ => ?_⟩
        exact ⟨hr, fun _ => hshown rfl⟩
      · exact (heap_library _ (hlibrary hle hpos.ne')).1.mono fun k v h =>
          ⟨h.1.within _, h.2.within _⟩
  case environments =>
      intro r hr m hm
      rcases Nat.eq_zero_or_pos r with rfl | hpos
      · cases (heap_globals_metatable (tagsOf registry)).symm.trans hm
      · cases (heap_library (tagsOf registry)
          (hlibrary hr.1 hpos.ne')).2.symm.trans hm
  case cells => exact fun v hv => absurd hv (Array.not_mem_empty v)
  case threads =>
      intro t ht
      rw [Array.mem_singleton.mp ht]
      trivial
  case main_thread => rfl

/-! What is left of a heap. -/

theorem globalEntry_covered {m : HeapMark} (hm : m.tables = 7) {k v : Value} (h : GlobalEntry k v) :
    m.covers k ∧ m.covers v := by
  refine ⟨h.1.covered m, ?_⟩
  rcases h.2 with hplain | ⟨r, rfl, hle, -⟩
  · exact hplain.covered m
  · exact decide_eq_true (by omega)

theorem coversTable_of_all {m : HeapMark} {t : Table}
    (h : t.All fun k v => m.covers k ∧ m.covers v) (hmeta : t.metatable = none) :
    m.coversTable t := by
  unfold HeapMark.coversTable
  rw [hmeta, Bool.and_eq_true, Bool.and_eq_true]
  refine ⟨⟨?_, ?_⟩, rfl⟩
  · exact Array.all_eq_true_iff_forall_mem.mpr fun v hv => (h.list v hv).2
  · refine List.all_eq_true.mpr fun p hp => ?_
    exact Bool.and_eq_true _ _ ▸ h.rest p hp

theorem heap_table_cases {P : Nat → Prop} (hglobals : P 0) (hlibrary : ∀ r ∈ Set.Icc 1 5, P r)
    (hstrings : P stringMeta) {r : Nat} (hr : r < 7) : P r := by
  rcases Nat.eq_zero_or_pos r with rfl | hpos
  · exact hglobals
  · rcases Nat.lt_or_ge 5 r with hlast | hle
    · obtain rfl : r = stringMeta := by unfold stringMeta; omega
      exact hstrings
    · exact hlibrary r ⟨hpos, hle⟩

private theorem ofRegistry_covers {r : Nat} (hr : r < 7) :
    (Context.ofRegistry registry).mark.coversTable
    ((Context.ofRegistry registry).heap.table r) := by
  have hmark : (Context.ofRegistry registry).mark.tables = 7 :=
    heap_size (tagsOf registry)
  have hstrings : stringMethods.All GlobalEntry :=
    Table.All.empty.set uniform_globalEntry ⟨trivial, Or.inr ⟨1, rfl, by decide, by decide⟩⟩
  refine heap_table_cases (P := fun r => (Context.ofRegistry registry).mark.coversTable
    ((Context.ofRegistry registry).heap.table r)) ?_ (fun r hr => ?_) ?_ hr
  · refine coversTable_of_all ?_ (heap_globals_metatable _)
    exact (heap_globals (tagsOf_plain registry)).mono fun k v => globalEntry_covered hmark
  · obtain ⟨hall, hmeta⟩ := heap_library (tagsOf registry) hr
    refine coversTable_of_all (hall.mono fun k v h => ?_) hmeta
    exact ⟨h.1.covered _, h.2.covered _⟩
  · rw [heap_ofRegistry, heap_strings]
    exact coversTable_of_all (hstrings.mono fun k v => globalEntry_covered hmark) rfl

/-- A heap in which the first tables are what they were comes down to the fresh one. -/
theorem reclaim_eq {hidden : Bool} {w : Set Nat} {s : Store}
    (h : Confined ⟨globalsOf registry, hidden⟩ w s)
    (hkept : ∀ r ∈ Set.Icc 1 5, s.heap.table r = (Context.ofRegistry registry).heap.table r) :
    (Context.ofRegistry registry).mark.reclaim s.heap = (Context.ofRegistry registry).heap := by
  have hroom : 7 ≤ s.heap.tables.size := h.room
  have hsize : (Context.ofRegistry registry).heap.tables.size = 7 :=
    heap_size (tagsOf registry)
  have hsame {r : Nat} (hr : r < 7) :
      s.heap.table r = (Context.ofRegistry registry).heap.table r := by
    refine heap_table_cases (P := fun r => s.heap.table r =
      (Context.ofRegistry registry).heap.table r) h.globals_kept hkept ?_ hr
    rw [h.strings_kept, heap_ofRegistry, heap_strings]
  have hget {h : Heap} {i : Nat} (hi : i < h.tables.size) : h.tables[i] = h.table i :=
    (dif_pos hi).symm
  have htables : s.heap.tables.extract 0 7 = (Context.ofRegistry registry).heap.tables := by
    apply Array.ext
    · rw [Array.size_extract, hsize]
      omega
    · intro i hi hi'
      rw [Array.getElem_extract, hget, hget]
      simp only [Nat.zero_add]
      exact hsame (hsize ▸ hi')
  have hthreads : s.heap.threads.extract 0 1 = #[.running] := by
    obtain ⟨hpos, hmain⟩ := Array.getElem?_eq_some_iff.mp h.main_thread
    apply Array.ext
    · rw [Array.size_extract]
      exact Nat.min_eq_left hpos
    · intro i hi hi'
      obtain rfl : i = 0 := Nat.lt_one_iff.mp hi'
      rw [Array.getElem_extract]
      exact hmain
  have hmark : (Context.ofRegistry registry).mark = ⟨7, 0, 1, 0⟩ := by
    change HeapMark.of (Library.heap (tagsOf registry)) = _
    unfold HeapMark.of
    rw [heap_size]
    rfl
  have hall : (Context.ofRegistry registry).heap.tables.all
      (Context.ofRegistry registry).mark.coversTable := by
    refine Array.all_eq_true.mpr fun i hi => ?_
    rw [hget hi]
    exact ofRegistry_covers (hsize ▸ hi)
  rw [hmark] at hall ⊢
  unfold HeapMark.reclaim
  dsimp only
  rw [htables, if_pos hall, hthreads, Array.extract_zero, Array.extract_zero]
  rfl

end Pagewright.Page
