import Pagewright.Proofs.MirroredRuns
import Pagewright.Proofs.RenderIsolation

/-! Pages on a store and on its mirror: until one shows the order of the globals, both are the same. -/
namespace Pagewright.Page

open Script

variable {α β γ δ ε : Type} {π : Nat ↪ Nat} {m : α → β} {n : γ → δ} {call call' : Callback}

/-! ### Computations that may fail -/

def TriesMirrored (π : Nat ↪ Nat) (m : α → β) (e : ExceptT ε Eval α) (e' : ExceptT ε Eval β) : Prop :=
  Mirrored π (Except.map m) e.run e'.run

namespace TriesMirrored

theorem bind {e : ExceptT ε Eval α} {e' : ExceptT ε Eval β} {f : α → ExceptT ε Eval γ}
    {f' : β → ExceptT ε Eval δ} (he : TriesMirrored π m e e')
    (hf : ∀ a, TriesMirrored π n (f a) (f' (m a))) : TriesMirrored π n (e >>= f) (e' >>= f') := by
  unfold TriesMirrored
  rw [ExceptT.run_bind, ExceptT.run_bind]
  refine Mirrored.bind he fun r => ?_
  cases r with
  | ok a => exact hf a
  | error e => exact .pure rfl

theorem lift {e : Eval α} {e' : Eval β} (h : Mirrored π m e e') :
    TriesMirrored π m (liftM e : ExceptT ε Eval α) (liftM e' : ExceptT ε Eval β) :=
  h.map fun _ => rfl

theorem pure {a : α} {b : β} (h : b = m a) :
    TriesMirrored π m (Pure.pure a : ExceptT ε Eval α) (Pure.pure b) :=
  Mirrored.pure (congrArg Except.ok h)

theorem throw (e : ε) : TriesMirrored π m (throw e : ExceptT ε Eval α) (throw e) :=
  Mirrored.pure rfl

theorem ite {e₁ e₂ : ExceptT ε Eval α} {e₁' e₂' : ExceptT ε Eval β} {c : Prop} [Decidable c]
    (h₁ : TriesMirrored π m e₁ e₁') (h₂ : TriesMirrored π m e₂ e₂') :
    TriesMirrored π m (if c then e₁ else e₂) (if c then e₁' else e₂') := by
  split
  · exact h₁
  · exact h₂

end TriesMirrored

theorem guarded_mirrored (fault : RenderFault) {e : Eval α} {e' : Eval β} (h : Mirrored π m e e') :
    TriesMirrored π m (Context.guarded fault e) (Context.guarded fault e') := by
  refine h.recover (b := .error fault) (fun _ => rfl) (fun _ => rfl) ?_ ?_
  all_goals
    intro stop s hstop
    cases stop with
    | exhausted => exact absurd rfl hstop
    | _ => rfl

theorem liftExcept_mirrored (r : Except RenderFault α) :
    TriesMirrored π (fun a => a) (Context.page.liftExcept r) (Context.page.liftExcept r) := by
  refine Mirrored.pure ?_
  cases r <;> rfl

/-! ### Scripts -/

@[simp] theorem pageText_moved (v : Value) : Context.pageText (v.moved π) = Context.pageText v := by
  unfold Context.pageText
  rw [Markup.valueText?_moved]

section Scripts

variable (hcall : Library.CallsMirrored π call call')
include hcall

theorem evaluate_mirrored (script : String) :
    TriesMirrored π (·.moved π) (Context.evaluate call script)
      (Context.evaluate call' script) := by
  refine (TriesMirrored.lift Chunk.newEnvironment_mirrored).bind fun env => ?_
  refine (TriesMirrored.lift (Chunk.loadValue_mirrored _ _ env)).bind fun f => ?_
  cases f with
  | error e => exact .throw _
  | ok f =>
    exact (guarded_mirrored _ (hcall f [])).bind fun vs => .pure (Value.headD_map_moved vs)

theorem page_mirrored (script : String) :
    TriesMirrored π (fun a => a) (Context.page call script) (Context.page call' script) := by
  refine (evaluate_mirrored hcall script).bind fun v => ?_
  rw [v.isFunction_moved, pageText_moved]
  exact .ite (.throw _) (liftExcept_mirrored _)

end Scripts

/-! ### Variables -/

theorem scalar_moved {v : Json} {value : Value} (h : Variables.scalar? v = some value) :
    value.moved π = value := by
  cases v with
  | string s =>
    obtain rfl := Option.some.inj h
    rfl
  | boolean b =>
    obtain rfl := Option.some.inj h
    rfl
  | number n =>
    obtain rfl := Option.some.inj h
    unfold Variables.number
    repeat' split
    all_goals rfl
  | _ => cases h

@[simp] private theorem list_moved (items : List Json) :
    (Variables.list items).moved π = Variables.list items := by
  have hscalars : (items.filterMap Variables.scalar?).map (·.moved π) =
      items.filterMap Variables.scalar? := by
    rw [List.map_filterMap]
    refine List.filterMap_congr fun item _ => ?_
    cases hitem : Variables.scalar? item with
    | none => rfl
    | some v => exact congrArg some (scalar_moved hitem)
  simp [Variables.list, Table.ofListWithin, Table.ofList, Table.moved, hscalars]

private theorem bindOne_agreed (r : Nat) (key : String) (v : Json) :
    Agreed π (Variables.bindOne r key v) (Variables.bindOne r key v) := by
  have hset (v : Value) := Library.setField_agreed (π := π) r (Value.ofText key) v
  unfold Variables.bindOne
  split
  · rename_i value hvalue
    have hscalar := hset value
    rw [scalar_moved hvalue] at hscalar
    exact hscalar
  · rename_i items _
    have hmade := Library.newTable_mirrored (π := π) (Variables.list items)
    rw [list_moved] at hmade
    exact hmade.bind hset
  · exact .pure rfl

private theorem bind_mirrored (vars : Variables) : Mirrored π (·.moved π) vars.bind vars.bind := by
  refine Mirrored.bind (m := fun r => r) (.onHeap fun _ _ h' hh => ?_) fun r => ?_
  · have hmade := hh.newTable Table.empty
    rw [Table.empty_moved] at hmade
    exact ⟨hh.newTable_fst _ _, hmade⟩
  · refine (Mirrored.forIn vars.map_id.symm fun p => bindOne_agreed r p.1 p.2).bind fun _ => ?_
    exact (Mirrored.forIn (List.map_id _).symm fun text => report_agreed .warn text).bind fun _ =>
      .pure rfl

private theorem pageFor_mirrored (hcall : Library.CallsMirrored π call call') (script : String)
    (vars : Variables) :
    TriesMirrored π (fun a => a) (Context.pageFor call script vars)
      (Context.pageFor call' script vars) := by
  refine (evaluate_mirrored hcall script).bind fun f => ?_
  rw [f.isFunction_moved]
  refine .ite (.throw _) ((TriesMirrored.lift (bind_mirrored vars)).bind fun table => ?_)
  refine (guarded_mirrored _ (hcall f [table])).bind fun vs => ?_
  dsimp only
  rw [Value.headD_map_moved, pageText_moved]
  exact liftExcept_mirrored _

namespace Job

theorem page_mirrored (j : Job) :
    Agreed π (j.page (callWhile fun c => !c.showsOrder)).run (j.page callValue).run := by
  have hplain : (Except.map fun a => a : Except RenderFault String → _) = fun r => r := by
    funext r
    cases r <;> rfl
  have hpage : TriesMirrored π (fun a => a) (j.page (callWhile fun c => !c.showsOrder))
      (j.page callValue) := by
    unfold page
    cases j.vars with
    | none => exact Page.page_mirrored callValue_mirrored j.script
    | some vars => exact pageFor_mirrored callValue_mirrored j.script vars
  unfold TriesMirrored at hpage
  rwa [hplain] at hpage

/-- A job in a context, for as long as it does not show the order of the globals. -/
def unordered (c : Context) (j : Job) : EStateM.Result Stop Store (Except RenderFault String) :=
  (j.page (callWhile fun c => !c.showsOrder)).run (c.store j.files)

end Job

/-! ### Contexts -/

namespace Context

def outcome : EStateM.Result Stop Store (Except RenderFault String) →
    Except RenderFault String × List LogRecord
  | .ok result s => (result, s.log.reverse)
  | .error _ s => (.error .unfinished, s.log.reverse)

private theorem renderWith_outcome (c : Context) (files : Files)
    (e : ExceptT RenderFault Eval String) :
    ((c.renderWith files e).result, (c.renderWith files e).log) =
      outcome (e.run (c.store files)) := by
  unfold renderWith perform
  cases e.run (c.store files) <;> rfl

def leaving (c : Context) (s : Store) : Context :=
  { c with heap := c.mark.reclaim s.heap, renders := c.renders + 1 }

structure Mirrors (π : Nat ↪ Nat) (c c' : Context) : Prop where
  store : ∀ files, (c.store files).Mirrors π (c'.store files)
  mark : c'.mark = c.mark

end Context

namespace HeapMark

@[simp] theorem covers_moved (m : HeapMark) (v : Value) : m.covers (v.moved π) = m.covers v := by
  cases v <;> rfl

theorem coversTable_mirrored (m : HeapMark) {t t' : Table} (h : (t.moved π).Reordered t') :
    m.coversTable t' = m.coversTable t := by
  have hothers : t'.others.all (fun p => m.covers p.1 && m.covers p.2) =
      t.others.all fun p => m.covers p.1 && m.covers p.2 := by
    rw [← h.others.perm.all_eq]
    simp only [Table.moved, List.all_map, Function.comp_def, movedEntry, covers_moved]
  have harray : t'.array.all m.covers = t.array.all m.covers := by
    rw [h.array]
    simp only [Table.moved, Array.all_map, Function.comp_def, covers_moved]
  unfold coversTable
  rw [harray, hothers, h.metatable]
  rfl

private theorem table_extract (h : Heap) (n r : Nat) :
    (h.tables.extract 0 n).getD r Table.empty = if r < n then h.table r else Table.empty := by
  rw [Array.getD_eq_getD_getElem?, Array.getElem?_extract, Heap.table,
    Array.getD_eq_getD_getElem?]
  by_cases hr : r < n
  · by_cases hsize : r < h.tables.size
    · simp [hr, hsize]
    · simp [hr, hsize]
  · simp [hr]

theorem all_extract (h : Heap) (n : Nat) (P : Table → Bool) :
    (h.tables.extract 0 n).all P ↔ ∀ r < n, r < h.tables.size → P (h.table r) := by
  have hget {r : Nat} (hr : r < h.tables.size) : h.table r = h.tables[r] := dif_pos hr
  rw [Array.all_eq_true]
  constructor
  · intro hall r hr hsize
    have hr' := hall r (by rw [Array.size_extract]; omega)
    rw [Array.getElem_extract] at hr'
    simpa [hget hsize] using hr'
  · intro hall r hr
    rw [Array.size_extract] at hr
    have hsize : r < h.tables.size := by omega
    have hr' := hall r (by omega) hsize
    rw [Array.getElem_extract]
    simpa [hget hsize] using hr'

theorem reclaim_mirrored (m : HeapMark) {h h' : Heap} (hh : h.Mirrors π 0 h') :
    (m.reclaim h).Mirrors π 0 (m.reclaim h') := by
  have hsize : (h'.tables.extract 0 m.tables).size = (h.tables.extract 0 m.tables).size := by
    rw [Array.size_extract, Array.size_extract, hh.size]
  have hcovered : (h'.tables.extract 0 m.tables).all m.coversTable =
      (h.tables.extract 0 m.tables).all m.coversTable := by
    rw [Bool.eq_iff_iff, all_extract, all_extract, hh.size]
    simp only [m.coversTable_mirrored (hh.tables _)]
  have htable {h : Heap} (r : Nat) : Heap.table
      { cells := #[], tables := h.tables.extract 0 m.tables,
        closures := h.closures.extract 0 m.closures,
        threads := h.threads.extract 0 m.threads,
        generators := h.generators.extract 0 m.generators } r =
      if r < m.tables then h.table r else Table.empty := table_extract h m.tables r
  unfold reclaim
  dsimp only
  rw [hcovered]
  split
  · constructor
    case cells => exact Array.map_empty.symm
    case size => exact hsize
    case tables =>
      intro r
      rw [htable, htable]
      split
      · exact hh.tables r
      · rw [Table.empty_moved]
        exact .refl _
    case ordered =>
      intro r hr
      rw [htable, htable]
      split
      · exact hh.ordered r hr
      · exact Table.empty_moved.symm
    case closures => exact congrArg (·.extract 0 m.closures) hh.closures
    case threads =>
      change h'.threads.extract 0 m.threads = (h.threads.extract 0 m.threads).map _
      rw [hh.threads, Array.map_extract]
    case generators => exact congrArg (·.extract 0 m.generators) hh.generators
  · exact hh

end HeapMark

namespace Context

variable {c c' : Context}

/-- A job gives on a mirror what it gives in the context, and leaves mirrors behind. -/
theorem Mirrors.render (h : c.Mirrors π c') {j : Job} (hended : hasEnded (j.unordered c)) :
    ((j.render c').result, (j.render c').log) = outcome (j.unordered c) ∧
      (c.leaving (storeOf (j.unordered c))).Mirrors π (j.render c').context := by
  have hends := j.page_mirrored (c.store j.files) (c'.store j.files) (h.store j.files)
  have hleft {s s' : Store} (hs : s.Mirrors π s') : (c.leaving s).Mirrors π (c'.leaving s') := by
    have hheap := hs.heap
    rw [hs.globals_first] at hheap
    refine ⟨fun files => { h.store files with heap := ?_ }, h.mark⟩
    change (c.mark.reclaim s.heap).Mirrors π 0 (c'.mark.reclaim s'.heap)
    rw [h.mark]
    exact c.mark.reclaim_mirrored hheap
  have hcontext : (j.render c').context =
      c'.leaving (storeOf ((j.page callValue).run (c'.store j.files))) := by
    rw [j.render_eq, renderWith_context]
    rfl
  rw [hcontext, j.render_eq, renderWith_outcome]
  change MirrorEnds π _ (j.unordered c) _ at hends
  generalize j.unordered c = r at hends hended
  generalize (j.page callValue).run (c'.store j.files) = r' at hends
  cases hends with
  | ok result hs => exact ⟨congrArg (fun log => (result, log.reverse)) hs.log, hleft hs⟩
  | raised v hs => exact ⟨congrArg (fun log => (Except.error _, log.reverse)) hs.log, hleft hs⟩
  | fault f hs => exact ⟨congrArg (fun log => (Except.error _, log.reverse)) hs.log, hleft hs⟩
  | exhausted => exact Bool.noConfusion hended

/-- Jobs one after the other, none of which shows the order of the globals. -/
def Unordered (c : Context) : List Job → Prop
  | [] => True
  | j :: jobs => hasEnded (j.unordered c) ∧ (c.leaving (storeOf (j.unordered c))).Unordered jobs

def pages (c : Context) : List Job → List (Except RenderFault String × List LogRecord)
  | [] => []
  | j :: jobs => ((j.render c).result, (j.render c).log) :: (j.render c).context.pages jobs

theorem Mirrors.pages_eq {π' : Nat ↪ Nat} {c'' : Context} (h : c.Mirrors π c')
    (h' : c.Mirrors π' c'') {jobs : List Job} (hjobs : c.Unordered jobs) :
    c''.pages jobs = c'.pages jobs := by
  induction jobs generalizing c c' c'' with
  | nil => rfl
  | cons j jobs ih =>
    obtain ⟨hended, hrest⟩ := hjobs
    obtain ⟨hpage, hleft⟩ := h.render hended
    obtain ⟨hpage', hleft'⟩ := h'.render hended
    rw [pages, pages, hpage, hpage', ih hleft hleft' hrest]

end Context

end Pagewright.Page
