import Mathlib.Tactic.IntervalCases
import Pagewright.Proofs.ComponentNames
import Pagewright.Proofs.MirroredPages

/-!
Contexts of one registry whose names are installed in different orders: they are mirrors of each other.
-/
namespace Pagewright.Script

variable {π : Nat ↪ Nat} {t t' : Table} {fields fields' : List (String × Value)}

/-! ### Fields in another order -/

@[simp] theorem shownKey_ofText (name : String) :
    Table.shownKey (Value.ofText name) = Value.ofText name :=
  congrArg Value.ofText (Bytes.toText_ofText name)

namespace Library

@[simp] theorem withFields_moved (t : Table) (fields : List (String × Value)) :
    (withFields t fields).moved π = withFields (t.moved π) (fields.map (Prod.map id (·.moved π))) := by
  induction fields generalizing t with
  | nil => rfl
  | cons p rest ih =>
    refine (ih (t.set (Value.ofText p.1) p.2)).trans ?_
    rw [← Table.set_moved]
    rfl

theorem tableOf_moved (functions : List (String × Builtin)) {constants : List (String × Value)}
    (h : constants.map (Prod.map id (·.moved π)) = constants) :
    (tableOf functions constants).moved π = tableOf functions constants := by
  unfold tableOf
  rw [withFields_moved, Table.empty_moved, List.map_append, h, List.map_map]
  rfl

private theorem withFields_reordered (h : t.Reordered t') (fields : List (String × Value)) :
    (withFields t fields).Reordered (withFields t' fields) := by
  induction fields generalizing t t' with
  | nil => exact h
  | cons p rest ih => exact ih (h.set _ _)

private theorem withFields_dictionary (h : t.Dictionary) (hfields : ∀ p ∈ fields, p.2 ≠ .nil) :
    (withFields t fields).Dictionary :=
  List.foldlRecOn fields _ h fun _ ht p hp => ht.set _ (hfields p hp)

private theorem withFields_perm (h : fields.Perm fields') (ht : t.Dictionary)
    (hnames : (fields.map Prod.fst).Nodup) (hfields : ∀ p ∈ fields, p.2 ≠ .nil) :
    (withFields t fields).Reordered (withFields t fields') := by
  induction h generalizing t with
  | nil => exact .refl _
  | cons p _ ih =>
    obtain ⟨hp, hrest⟩ := List.forall_mem_cons.mp hfields
    exact ih (ht.set _ hp) (List.nodup_cons.mp hnames).2 hrest
  | swap p q rest =>
    obtain ⟨hq, hrest⟩ := List.forall_mem_cons.mp hfields
    have hp := (List.forall_mem_cons.mp hrest).1
    have hne : q.1 ≠ p.1 := fun heq =>
      (List.nodup_cons.mp hnames).1 (heq ▸ List.mem_cons_self)
    refine withFields_reordered (ht.set_comm ?_ hq hp) rest
    exact fun heq => hne (Page.Variables.ofText_inj
      ((shownKey_ofText q.1).symm.trans (heq.trans (shownKey_ofText p.1))))
  | trans h₁ _ ih₁ ih₂ =>
    refine (ih₁ ht hnames hfields).trans (ih₂ ht ((h₁.map _).nodup hnames) fun p hp => ?_)
    exact hfields p (h₁.mem_iff.mpr hp)

private theorem heap_table_tableOf {r : Nat} (hr : r ∈ Set.Icc 1 5) : ∃ functions constants,
    (∀ more, (heap more).table r = tableOf functions constants) ∧
      constants.map (Prod.map id (·.moved π)) = constants := by
  obtain ⟨hfirst, hlast⟩ := hr
  interval_cases r
  · exact ⟨Builtin.stringLibrary, [], fun more => by rw [Heap.table, heap_tables]; rfl, rfl⟩
  · exact ⟨Builtin.tableLibrary, [], fun more => by rw [Heap.table, heap_tables]; rfl, rfl⟩
  · exact ⟨Builtin.mathLibrary, mathConstants, fun more => by rw [Heap.table, heap_tables]; rfl, rfl⟩
  · exact ⟨Builtin.coroutineLibrary, [], fun more => by rw [Heap.table, heap_tables]; rfl, rfl⟩
  · exact ⟨Builtin.utf8Library, [("charpattern", .string characterPattern)],
      fun more => by rw [Heap.table, heap_tables]; rfl, rfl⟩

theorem heap_table_moved {r : Nat} (hr : r ≠ 0) (more more' : List (String × Value)) :
    (heap more').table r = ((heap more).table r).moved π := by
  by_cases hlibrary : r ∈ Set.Icc 1 5
  · obtain ⟨functions, constants, htable, hconstants⟩ := heap_table_tableOf (π := π) hlibrary
    rw [htable, htable, tableOf_moved functions hconstants]
  · by_cases hstrings : r = stringMeta
    · have hmethods : stringMethods.moved π = stringMethods := by
        unfold stringMethods
        rw [← Table.set_moved, Table.empty_moved]
        rfl
      rw [hstrings, heap_strings, heap_strings, hmethods]
    · have hbeyond (more : List (String × Value)) : (heap more).table r = Table.empty := by
        have hsize := heap_size more
        refine dif_neg ?_
        simp only [Set.mem_Icc, not_and, not_le, stringMeta] at hlibrary hstrings
        omega
      rw [hbeyond, hbeyond, Table.empty_moved]

end Library

end Pagewright.Script

namespace Pagewright.Page

open Script Script.Library

variable {order order' : List (String × Markup.Binding)}

/-! ### Orders of installation -/

private theorem exists_places (h : order.Perm order') (hnodup : order.Nodup) :
    ∃ π : Nat ↪ Nat, (∀ r (hr : r < order.length), π r = order'.idxOf order[r]) ∧
      ∀ r, order.length ≤ r → π r = r := by
  let place (r : Nat) : Nat := if hr : r < order.length then order'.idxOf order[r] else r
  have hwithin {r : Nat} (hr : r < order.length) : order'.idxOf order[r] < order.length := by
    rw [h.length_eq]
    exact List.idxOf_lt_length_of_mem (h.mem_iff.mp (List.getElem_mem hr))
  have hinj : Function.Injective place := by
    intro r r' heq
    simp only [place] at heq
    split at heq
    · split at heq
      · rename_i hr hr'
        have htags := (List.idxOf_inj (h.mem_iff.mp (List.getElem_mem hr))).mp heq
        exact (hnodup.getElem_inj_iff).mp htags
      · rename_i hr hr'
        exact absurd (heq ▸ hwithin hr) hr'
    · split at heq
      · rename_i hr hr'
        exact absurd (heq ▸ hwithin hr') hr
      · exact heq
  exact ⟨⟨place, hinj⟩, fun r hr => dif_pos hr, fun r hr => dif_neg (Nat.not_lt.mpr hr)⟩

private theorem tagsOf_moved {π : Nat ↪ Nat}
    (hπ : ∀ r (hr : r < order.length), π r = order'.idxOf order[r]) :
    (tagsOf ⟨order⟩).map (Prod.map id (·.moved π)) =
      order.map fun tag => (tag.1, Value.hosted (order'.idxOf tag)) := by
  apply List.ext_getElem
  · simp [tagsOf]
  · intro r hr hr'
    have hlength : r < order.length := by simpa using hr'
    simp [tagsOf, hπ r hlength]

private theorem tagsOf_eq (hnodup : order.Nodup) :
    tagsOf ⟨order⟩ = order.map fun tag => (tag.1, Value.hosted (order.idxOf tag)) := by
  apply List.ext_getElem
  · simp [tagsOf]
  · intro r hr hr'
    simp [tagsOf, hnodup.idxOf_getElem]

@[simp] private theorem dictionary_globals : (tableOf Builtin.globals globalTables).Dictionary := by
  refine withFields_dictionary Table.dictionary_empty fun p hp => ?_
  rcases List.mem_append.mp hp with hp | hp
  · obtain ⟨⟨name, f⟩, -, rfl⟩ := List.mem_map.mp hp
    exact Value.noConfusion
  · have hall : ∀ p ∈ globalTables, p.2 ≠ .nil := by decide
    exact hall p hp

private theorem globals_reordered {π : Nat ↪ Nat}
    (hπ : ∀ r (hr : r < order.length), π r = order'.idxOf order[r]) (h : order.Perm order')
    (hnames : (order.map Prod.fst).Nodup) :
    ((globalsOf ⟨order⟩).moved π).Reordered (globalsOf ⟨order'⟩) := by
  have hnodup' : order'.Nodup := h.nodup_iff.mp (List.Nodup.of_map _ hnames)
  have hplain : globalTables.map (Prod.map id (·.moved π)) = globalTables := rfl
  unfold globalsOf
  rw [heap_ofRegistry, heap_ofRegistry, heap_table_globals, heap_table_globals, withFields_moved,
    tableOf_moved _ hplain, tagsOf_moved hπ, tagsOf_eq hnodup']
  refine withFields_perm (h.map _) dictionary_globals ?_ fun p hp => ?_
  · rw [List.map_map]
    exact hnames
  · obtain ⟨tag, -, rfl⟩ := List.mem_map.mp hp
    exact Value.noConfusion

/-- In whatever order the names of a registry are installed, the contexts are mirrors. -/
theorem ofRegistry_mirrors (h : order.Perm order') (hnames : (order.map Prod.fst).Nodup) :
    ∃ π, (Context.ofRegistry ⟨order⟩).Mirrors π (Context.ofRegistry ⟨order'⟩) := by
  have hnodup : order.Nodup := List.Nodup.of_map _ hnames
  obtain ⟨π, hπ, hbeyond⟩ := exists_places h hnodup
  have hmark (more : List (String × Value)) : HeapMark.of (Library.heap more) = ⟨7, 0, 1, 0⟩ := by
    unfold HeapMark.of
    rw [heap_size]
    rfl
  have hheap : (Library.heap (tagsOf ⟨order⟩)).Mirrors π 0 (Library.heap (tagsOf ⟨order'⟩)) := by
    constructor
    case size => rw [heap_size, heap_size]
    case tables =>
      intro r
      by_cases hr : r = 0
      · rw [hr]
        exact globals_reordered hπ h hnames
      · exact heap_table_moved hr (tagsOf ⟨order⟩) (tagsOf ⟨order'⟩) ▸ .refl _
    case ordered => exact fun r hr => heap_table_moved hr _ _
    case cells => exact Array.map_empty.symm
    case threads => simp [Library.heap, Thread.moved]
    all_goals rfl
  refine ⟨π, fun files => ?_, (hmark _).trans (hmark _).symm⟩
  constructor
  case heap => exact hheap
  case tags =>
    intro r
    change order'.toArray[π r]? = order.toArray[r]?
    rw [List.getElem?_toArray, List.getElem?_toArray]
    by_cases hr : r < order.length
    · rw [hπ r hr, List.getElem?_idxOf (h.mem_iff.mp (List.getElem_mem hr)),
        List.getElem?_eq_getElem hr]
    · rw [hbeyond r (Nat.le_of_not_lt hr), List.getElem?_eq_none (Nat.le_of_not_lt hr),
        List.getElem?_eq_none (h.length_eq ▸ Nat.le_of_not_lt hr)]
  case untagged =>
    intro r hr
    change order.toArray[r]? = none at hr
    rw [List.getElem?_toArray, List.getElem?_eq_none_iff] at hr
    exact hbeyond r hr
  all_goals rfl

theorem pages_perm (h : order.Perm order') (hnames : (order.map Prod.fst).Nodup) {jobs : List Job}
    (hjobs : (Context.ofRegistry ⟨order⟩).Unordered jobs) :
    (Context.ofRegistry ⟨order'⟩).pages jobs = (Context.ofRegistry ⟨order⟩).pages jobs := by
  obtain ⟨_, hself⟩ := ofRegistry_mirrors (List.Perm.refl order) hnames
  obtain ⟨_, hother⟩ := ofRegistry_mirrors h hnames
  exact hself.pages_eq hother hjobs

end Pagewright.Page

/-! Jobs that show no order: those that leave the globals out of reach. -/

namespace Pagewright.Script

variable {g : Globals} {w : Set Nat}

theorem Config.Confined.not_showsOrder {c : Config} (h : c.Confined g w)
    (hhidden : g.hidden = true) :
    c.showsOrder = false := by
  obtain ⟨control, stack, s⟩ := c
  obtain ⟨hcontrol, -, hs⟩ := h
  dsimp only at hcontrol hs
  have hout : 0 ∉ w := fun hmem => Bool.noConfusion (hhidden.symm.trans (hs.globals_hidden.mp hmem))
  cases control with
  | apply f args site =>
    have hhead : args.head? ≠ some (.table s.globals) := fun hhead => by
      rw [hs.globals] at hhead
      exact hout (hcontrol.2 _ (List.mem_of_head? hhead))
    simp [Config.showsOrder, Store.showsOrder, hhead]
  | _ => rfl

private theorem runWhile_agrees (hhidden : g.hidden = true) (fuel : Nat) (c : Config)
    (h : c.Confined g w) :
    Alike g w (runWhile (fun c => !c.showsOrder) fuel c) (runWhile (Config.orderly true) fuel c)
      AllWithin := by
  induction fuel generalizing c w with
  | zero => exact .inl ⟨_, rfl⟩
  | succ fuel ih =>
    unfold runWhile
    by_cases horderly : c.orderly true
    · rw [if_pos horderly, h.not_showsOrder hhidden]
      exact proceed_agrees (fun w c hc => ih c hc) h (hhidden ▸ horderly)
    · exact .inl ⟨_, if_neg horderly⟩

end Pagewright.Script

namespace Pagewright.Page

open Script

variable {registry : Markup.Registry}

theorem Job.OrderlyIf.unordered_eq {j : Job} (h : j.OrderlyIf registry true) :
    j.unordered (.ofRegistry registry) = j.watched registry true := by
  have hconfined := ofRegistry_confined registry j.files true
  have hcalls : Library.CallsAgree ⟨globalsOf registry, true⟩
      (callWhile fun c => !c.showsOrder) (callWhile (Config.orderly true)) :=
    callBy_agrees fun _ c hc => runWhile_agrees rfl plenty c hc
  rcases j.page_agrees hcalls _ hconfined with ⟨s, hstop⟩ | ⟨heq, -⟩
  · have hended := h.ends
    unfold Job.watched at hended
    rw [hstop] at hended
    exact Bool.noConfusion hended
  · exact heq

/-- Jobs that leave the globals out of reach do not show their order. -/
theorem Context.Fresh.unordered {c : Context} (h : c.Fresh registry) {jobs : List Job}
    (hjobs : ∀ j ∈ jobs, j.OrderlyIf registry true) : c.Unordered jobs := by
  induction jobs generalizing c with
  | nil => trivial
  | cons j jobs ih =>
    obtain ⟨hj, hrest⟩ := List.forall_mem_cons.mp hjobs
    have hunordered : j.unordered c = j.watched registry true := by
      rw [← hj.unordered_eq, h]
      rfl
    obtain ⟨-, w, hconfined⟩ := hj.run_eq
    rw [Unordered, hunordered]
    refine ⟨hj.ends, ih ?_ hrest⟩
    rw [h]
    exact congrArg (fun heap => { ofRegistry registry with heap, renders := c.renders + 1 })
      (reclaim_eq hconfined hj.library_kept)

end Pagewright.Page
