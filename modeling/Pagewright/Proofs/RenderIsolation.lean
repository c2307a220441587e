import Pagewright.Page.Pool
import Pagewright.Proofs.FreshContext
import Pagewright.Proofs.PageScripts

/-! Renders one after the other. A script that leaves alone what all of them share leaves its context
as fresh as it was, but for the count of its renders. -/
namespace Pagewright.Page

open Script

/-! Jobs. -/

/-- What is rendered: a script, by itself or for some variables, and the files that it may load. -/
structure Job where
  script : String
  vars : Option Variables
  files : Files

namespace Job

def page (call : Callback) (j : Job) : ExceptT RenderFault Eval String :=
  match j.vars with
  | none => Context.page call j.script
  | some vars => Context.pageFor call j.script vars

def render (j : Job) (c : Context) : Context.Rendering :=
  match j.vars with
  | none => c.render j.files j.script
  | some vars => c.renderVariables j.files j.script vars

def watched (registry : Markup.Registry) (hidden : Bool) (j : Job) :
    EStateM.Result Stop Store (Except RenderFault String) :=
  (j.page (callWhile (Config.orderly hidden))).run ((Context.ofRegistry registry).store j.files)

structure OrderlyIf (registry : Markup.Registry) (hidden : Bool) (j : Job) : Prop where
  ends : hasEnded (j.watched registry hidden)
  library_kept : ∀ i ∈ Set.Icc 1 5,
    (storeOf (j.watched registry hidden)).heap.table i = (Context.ofRegistry registry).heap.table i

/-- A job that leaves alone what scripts share. The globals stay out of its reach, or it does not change
them. -/
def Orderly (registry : Markup.Registry) (j : Job) : Prop := ∃ hidden, j.OrderlyIf registry hidden

instance (registry : Markup.Registry) (hidden : Bool) (j : Job) :
    Decidable (j.OrderlyIf registry hidden) :=
  decidable_of_iff (hasEnded (j.watched registry hidden) = true ∧ ∀ i ∈ List.range' 1 5,
      (storeOf (j.watched registry hidden)).heap.table i =
        (Context.ofRegistry registry).heap.table i)
    ⟨fun h => ⟨h.1, fun i hi => h.2 i (List.mem_range'_1.mpr ⟨hi.1, Nat.lt_succ_of_le hi.2⟩)⟩,
      fun h => ⟨h.ends, fun i hi =>
        h.library_kept i ((List.mem_range'_1.mp hi).imp_right Nat.le_of_lt_succ)⟩⟩

theorem render_eq (j : Job) (c : Context) :
    j.render c = c.renderWith j.files (j.page callValue) := by
  unfold render page
  cases j.vars <;> rfl

theorem page_agrees (j : Job) {g : Globals} {w : Set Nat} {call call' : Callback}
    (hcall : Library.CallsAgree g call call') :
    RunsAgree g w (j.page call) (j.page call') fun _ _ => True := by
  unfold page
  cases j.vars with
  | none => exact Page.page_agrees hcall j.script
  | some vars => exact pageFor_agrees hcall j.script vars

variable {registry : Markup.Registry}

theorem OrderlyIf.run_eq {hidden : Bool} {j : Job} (h : j.OrderlyIf registry hidden) :
    (j.page callValue).run ((Context.ofRegistry registry).store j.files) =
        j.watched registry hidden ∧
      ∃ w, Confined ⟨globalsOf registry, hidden⟩ w (storeOf (j.watched registry hidden)) := by
  have hconfined := ofRegistry_confined registry j.files hidden
  rcases j.page_agrees callValue_agrees _ hconfined with ⟨s, hstop⟩ | ⟨heq, w, hw, hends⟩
  · have hended := h.ends
    unfold watched at hended
    rw [hstop] at hended
    exact Bool.noConfusion hended
  · exact ⟨heq, w, hends.confined h.ends⟩

theorem Orderly.reclaim {j : Job} (h : j.Orderly registry) :
    (Context.ofRegistry registry).mark.reclaim (storeOf
      ((j.page callValue).run ((Context.ofRegistry registry).store j.files))).heap =
        (Context.ofRegistry registry).heap := by
  obtain ⟨hidden, h⟩ := h
  obtain ⟨hrun, w, hconfined⟩ := h.run_eq
  rw [hrun]
  exact reclaim_eq hconfined h.library_kept

end Job

/-! Contexts. -/

variable {registry : Markup.Registry}

/-- Of a context's past only the count of its renders shows. -/
def Context.Fresh (registry : Markup.Registry) (c : Context) : Prop :=
  c = { Context.ofRegistry registry with renders := c.renders }

@[simp] theorem Context.fresh_ofRegistry : (Context.ofRegistry registry).Fresh registry := rfl

theorem Context.perform_eq {α : Type} (c : Context) (files : Files) (e : Eval α) :
    (c.perform files e).2.1 =
      { c with heap := c.mark.reclaim (storeOf (e (c.store files))).heap } := by
  unfold Context.perform
  cases e (c.store files) <;> rfl

theorem Context.renderWith_context (c : Context) (files : Files)
    (e : ExceptT RenderFault Eval String) :
    (c.renderWith files e).context =
      { c with
        heap := c.mark.reclaim (storeOf (e.run (c.store files))).heap
        renders := c.renders + 1 } := by
  have hcontext := c.perform_eq files e.run
  unfold Context.renderWith
  rcases hperform : c.perform files e.run with ⟨r, c', log⟩
  rw [hperform] at hcontext
  obtain rfl := hcontext
  cases r <;> rfl

namespace Context.Fresh

variable {c : Context}

theorem render (h : c.Fresh registry) (j : Job) :
    (j.render c).result = (j.render (.ofRegistry registry)).result ∧
      (j.render c).log = (j.render (.ofRegistry registry)).log := by
  rw [h, Job.render_eq, Job.render_eq]
  have hstore : Context.store { Context.ofRegistry registry with renders := c.renders } j.files =
      (Context.ofRegistry registry).store j.files := rfl
  unfold Context.renderWith Context.perform
  rw [hstore]
  cases (j.page callValue).run ((Context.ofRegistry registry).store j.files) with
  | ok a s => exact ⟨rfl, rfl⟩
  | error e s => exact ⟨rfl, rfl⟩

theorem render_context (h : c.Fresh registry) {j : Job} (hj : j.Orderly registry) :
    (j.render c).context.Fresh registry := by
  obtain ⟨n, rfl⟩ : ∃ n, c = { Context.ofRegistry registry with renders := n } := ⟨_, h⟩
  rw [Job.render_eq, Context.renderWith_context]
  exact congrArg (fun heap => { Context.ofRegistry registry with heap, renders := n + 1 })
    (hj.reclaim)

end Context.Fresh

/-! Pools. -/

/-- The states of a pool, with the guards that are out, as they come about by asking for guards, by
orderly jobs in their contexts and by giving guards back, in any order. -/
inductive Pool.InUse (registry : Markup.Registry) : Pool Context → List (Guard Context) → Prop
  | new (maxRenders : Nat) : InUse registry (Pool.new maxRenders) []
  | get {p : Pool Context} {gs : List (Guard Context)} :
      InUse registry p gs → InUse registry p.get.2 (p.get.1 :: gs)
  | render {p : Pool Context} {g : Guard Context} {gs gs' : List (Guard Context)} {j : Job} :
      InUse registry p (gs ++ g :: gs') → j.Orderly registry →
      InUse registry p
        (gs ++ .holding (j.render (g.context (.ofRegistry registry))).context :: gs')
  | drop {p : Pool Context} {g : Guard Context} {gs gs' : List (Guard Context)} :
      InUse registry p (gs ++ g :: gs') → InUse registry (p.drop Context.renders g) (gs ++ gs')

def Guard.Fresh (registry : Markup.Registry) (g : Guard Context) : Prop :=
  ∀ c, g.held = some c → c.Fresh registry

@[simp] theorem Guard.fresh_none : (⟨none⟩ : Guard Context).Fresh registry := by
  rintro c ⟨⟩

theorem Guard.Fresh.context {g : Guard Context} (h : g.Fresh registry) :
    (g.context (.ofRegistry registry)).Fresh registry := by
  unfold Guard.context
  cases hheld : g.held with
  | none => exact Context.fresh_ofRegistry
  | some c => exact h c hheld

namespace Pool

variable {p : Pool Context}

def Fresh (registry : Markup.Registry) (p : Pool Context) : Prop :=
  ∀ c ∈ p.idle, c.Fresh registry

theorem Fresh.get (h : p.Fresh registry) : p.get.2.Fresh registry ∧ p.get.1.Fresh registry := by
  unfold Pool.get
  split
  · exact ⟨h, Guard.fresh_none⟩
  · split
    · exact ⟨h, Guard.fresh_none⟩
    · rename_i c rest hidle
      unfold Pool.Fresh at h
      rw [hidle] at h
      obtain ⟨hc, hrest⟩ := List.forall_mem_cons.mp h
      refine ⟨hrest, ?_⟩
      rintro c ⟨⟩
      exact hc

theorem Fresh.drop (h : p.Fresh registry) {g : Guard Context} (hg : g.Fresh registry) :
    (p.drop Context.renders g).Fresh registry := by
  unfold Pool.drop
  split
  · rename_i c hheld
    unfold Pool.put
    split
    · exact List.forall_mem_cons.mpr ⟨hg c hheld, h⟩
    · exact h
  · exact h

theorem InUse.fresh {gs : List (Guard Context)} (h : InUse registry p gs) :
    p.Fresh registry ∧ ∀ g ∈ gs, g.Fresh registry := by
  induction h with
  | new maxRenders =>
      exact ⟨fun c hc => absurd hc List.not_mem_nil, fun g hg => absurd hg List.not_mem_nil⟩
  | get _ ih => exact ⟨ih.1.get.1, List.forall_mem_cons.mpr ⟨ih.1.get.2, ih.2⟩⟩
  | @render p g gs gs' j _ hj ih =>
      obtain ⟨hp, hgs⟩ := ih
      rw [List.forall_mem_append, List.forall_mem_cons] at hgs
      refine ⟨hp, List.forall_mem_append.mpr ⟨hgs.1, List.forall_mem_cons.mpr ⟨?_, hgs.2.2⟩⟩⟩
      rintro c ⟨⟩
      exact hgs.2.1.context.render_context hj
  | @drop p g gs gs' _ ih =>
      obtain ⟨hp, hgs⟩ := ih
      rw [List.forall_mem_append, List.forall_mem_cons] at hgs
      exact ⟨hp.drop hgs.2.1, List.forall_mem_append.mpr ⟨hgs.1, hgs.2.2⟩⟩

end Pool

/-! One context after some jobs. -/

def Context.after (c : Context) (jobs : List Job) : Context :=
  jobs.foldl (fun c j => (j.render c).context) c

theorem Context.Fresh.after {c : Context} (h : c.Fresh registry) {jobs : List Job}
    (hjobs : ∀ j ∈ jobs, j.Orderly registry) : (c.after jobs).Fresh registry :=
  List.foldlRecOn jobs _ h fun _ hc j hj => hc.render_context (hjobs j hj)

/-- Renders are isolated from each other: whatever orderly jobs have been done in a context, or in the
contexts of a pool, any job gives what it gives in a fresh one. -/
theorem render_isolated (registry : Markup.Registry) (b : Job) :
    (∀ jobs : List Job, (∀ j ∈ jobs, j.Orderly registry) →
      (b.render ((Context.ofRegistry registry).after jobs)).result =
          (b.render (.ofRegistry registry)).result ∧
        (b.render ((Context.ofRegistry registry).after jobs)).log =
          (b.render (.ofRegistry registry)).log) ∧
    (∀ (p : Pool Context) (gs : List (Guard Context)), p.InUse registry gs → ∀ g ∈ gs,
      (b.render (g.context (.ofRegistry registry))).result =
          (b.render (.ofRegistry registry)).result ∧
        (b.render (g.context (.ofRegistry registry))).log =
          (b.render (.ofRegistry registry)).log) := by
  constructor
  · intro jobs hjobs
    exact (Context.fresh_ofRegistry.after hjobs).render b
  · intro p gs h g hg
    exact (h.fresh.2 g hg).context.render b

/-- A page that rebinds a name, takes it away and fails, one that only reads through the name that its
environment has lost, and what the next page finds, in the same context and in the one that a pool hands
out again. -/
theorem render_isolated_rebinding :
    let registry := Markup.Registry.empty.register "Div" false
    let a : Job := ⟨"Div = print; _G.Div = nil; error('x')", none, ⟨[]⟩⟩
    let a' : Job := ⟨"_G = nil; return _G.Div()", none, ⟨[]⟩⟩
    let b : Job := ⟨"return Div()", none, ⟨[]⟩⟩
    let used := (a.render (.ofRegistry registry)).context
    (b.render ((Context.ofRegistry registry).after [a, a'])).result =
        (b.render (.ofRegistry registry)).result ∧
      (b.render ((Guard.holding used).context (.ofRegistry registry))).result =
        (b.render (.ofRegistry registry)).result := by
  intro registry a a' b used
  have ha : a.Orderly registry := ⟨true, by decide +kernel⟩
  have ha' : a'.Orderly registry := ⟨false, by decide +kernel⟩
  have hjobs : ∀ j ∈ [a, a'], j.Orderly registry :=
    List.forall_mem_cons.mpr ⟨ha, List.forall_mem_singleton.mpr ha'⟩
  have hrenders : used.renders = 1 := congrArg Context.renders
    (Context.renderWith_context (.ofRegistry registry) ⟨[]⟩ (a.page callValue))
  have hwaiting : Pool.InUse registry ⟨2, [used]⟩ [] := by
    have hguard : Pool.InUse registry (Pool.new 2) ([] ++ ⟨none⟩ :: []) := .get (.new 2)
    have hdropped : (Pool.new 2).drop Context.renders (Guard.holding used) = ⟨2, [used]⟩ :=
      if_pos (hrenders ▸ Nat.lt_succ_self 1)
    exact hdropped ▸ (hguard.render ha).drop
  exact ⟨((render_isolated registry b).1 [a, a'] hjobs).1,
    ((render_isolated registry b).2 _ _ hwaiting.get _ List.mem_cons_self).1⟩

/-- A script whose environment has lost its name assigns to the globals themselves, and what it
assigns is still there for the next one. -/
theorem lost_name_leaks :
    let registry := Markup.Registry.empty.register "Div" false
    let a : Job := ⟨"_G = nil; _G.Div = function() return 'X' end; return 1", none, ⟨[]⟩⟩
    let b : Job := ⟨"return Div()", none, ⟨[]⟩⟩
    (b.render ((Context.ofRegistry registry).after [a])).result.toOption = some "X" ∧
      (b.render (.ofRegistry registry)).result.toOption = some "<div></div>" := by
  decide +kernel

/-- Nothing but the name that an environment has lost leads to the globals. -/
theorem index_globals_iff (hnames : ∀ b ∈ registry.bindings, Value.ofText b.1 ≠ selfName)
    {w : Set Nat} {s : Store} (h : Confined ⟨globalsOf registry, true⟩ w s) {object : Value}
    (hobject : object.Within w) (key : Value) :
    index s longestChain object key = .value (.table 0) ↔ s.heap.asksLostName object key :=
  index_eq_globals_iff h rfl (globalsOf_self hnames) hobject key

end Pagewright.Page
