import Pagewright.Page.Context
import Pagewright.Proofs.Runs

/-! Pages, whose scripts and components are called by one callback or another. -/
namespace Pagewright.Page

open Script

variable {g : Globals} {w : Set Nat} {α β ε : Type}

/-! Computations that may fail. -/

def OnOk (P : Set Nat → α → Prop) (w : Set Nat) (r : Except ε α) : Prop := ∀ a, r = .ok a → P w a

theorem onOk_ok {P : Set Nat → α → Prop} {a : α} (h : P w a) :
    OnOk P w (Except.ok a : Except ε α) := by
  rintro a ⟨⟩
  exact h

@[simp] theorem onOk_error {P : Set Nat → α → Prop} (e : ε) :
    OnOk P w (Except.error e : Except ε α) := by
  rintro a ⟨⟩

def RunsAgree (g : Globals) (w : Set Nat) (e e' : ExceptT ε Eval α) (P : Set Nat → α → Prop) : Prop :=
  Agrees g w e.run e'.run (OnOk P)

theorem RunsAgree.bind {e e' : ExceptT ε Eval α} {f f' : α → ExceptT ε Eval β}
    {P : Set Nat → α → Prop} {Q : Set Nat → β → Prop} (he : RunsAgree g w e e' P)
    (hf : ∀ w', w ⊆ w' → ∀ a, P w' a → RunsAgree g w' (f a) (f' a) Q) :
    RunsAgree g w (e >>= f) (e' >>= f') Q := by
  unfold RunsAgree
  rw [ExceptT.run_bind, ExceptT.run_bind]
  refine Agrees.bind he fun w' hw r hr => ?_
  cases r with
  | ok a => exact hf w' hw a (hr a rfl)
  | error e => exact .pure (onOk_error e)

theorem RunsAgree.lift {e e' : Eval α} {P : Set Nat → α → Prop} (h : Agrees g w e e' P) :
    RunsAgree g w (liftM e : ExceptT ε Eval α) (liftM e' : ExceptT ε Eval α) P := by
  change Agrees g w (Except.ok <$> e) (Except.ok <$> e') (OnOk P)
  rw [map_eq_pure_bind, map_eq_pure_bind]
  exact h.bind fun w' _ a ha => .pure (onOk_ok ha)

theorem RunsAgree.pure {a : α} {P : Set Nat → α → Prop} (h : P w a) :
    RunsAgree g w (Pure.pure a : ExceptT ε Eval α) (Pure.pure a) P :=
  Agrees.pure (onOk_ok h)

theorem RunsAgree.throw (e : ε) (P : Set Nat → α → Prop) :
    RunsAgree g w (throw e : ExceptT ε Eval α) (throw e) P :=
  Agrees.pure (onOk_error e)

/-! Scripts and their pages. -/

variable {call call' : Callback}

theorem guarded_agrees (fault : RenderFault) {e e' : Eval α} {P : Set Nat → α → Prop}
    (h : Agrees g w e e' P) :
    RunsAgree g w (Context.guarded fault e) (Context.guarded fault e') P := by
  refine h.recover (b := .error fault) (fun w' a ha => onOk_ok ha) (fun w' => onOk_error fault)
    (fun _ => rfl) fun stop s hstop => ?_
  cases stop with
  | exhausted => exact absurd rfl hstop
  | raised v => rfl
  | fault f => rfl

theorem evaluate_agrees (hcall : Library.CallsAgree g call call') (script : String) :
    RunsAgree g w (Context.evaluate call script) (Context.evaluate call' script) fun w' v =>
      v.Within w' := by
  refine (RunsAgree.lift newEnvironment_agrees).bind fun w₁ _ env henv => ?_
  have hload := loadValue_keeps (g := g) (Bytes.ofText script) Context.chunkName henv
  refine (RunsAgree.lift (Same.agrees hload)).bind fun w₂ _ r hr => ?_
  cases r with
  | error e => exact .throw _ _
  | ok f =>
      refine (guarded_agrees _ (hcall (hr f rfl) allWithin_nil)).bind fun w₃ _ vs hvs => ?_
      exact .pure (AllWithin.headD hvs)

theorem liftExcept_agrees (e : Except RenderFault α) :
    RunsAgree g w (Context.page.liftExcept e) (Context.page.liftExcept e) fun _ _ => True :=
  Agrees.pure fun _ _ => trivial

theorem page_agrees (hcall : Library.CallsAgree g call call') (script : String) :
    RunsAgree g w (Context.page call script) (Context.page call' script) fun _ _ => True := by
  refine (evaluate_agrees hcall script).bind fun w' _ v _ => ?_
  split
  · exact .throw _ _
  · exact liftExcept_agrees _

/-! Variables. -/

theorem scalar_within {v : Json} {value : Value} (h : Variables.scalar? v = some value) :
    value.Within w := by
  cases v with
  | string s =>
      obtain rfl := Option.some.inj h
      trivial
  | boolean b =>
      obtain rfl := Option.some.inj h
      trivial
  | number n =>
      obtain rfl := Option.some.inj h
      unfold Variables.number
      split
      · split
        · trivial
        · trivial
      · trivial
  | _ => cases h

@[simp] private theorem list_within (items : List Json) : (Variables.list items).Within w := by
  refine Table.within_ofList (allWithin_append.mpr ⟨fun v hv => ?_, fun v hv => ?_⟩)
  · obtain ⟨item, _, hitem⟩ := List.mem_filterMap.mp hv
    exact scalar_within hitem
  · rw [List.eq_of_mem_replicate hv]
    trivial

private theorem setField_keeps {r : Nat} (hr : r ∈ w \ {0}) {k v : Value} (hk : k.Within w)
    (hv : v.Within w) :
    Keeps g w (Eval.setField r k v) fun _ => True :=
  .onHeap fun _ hs => ⟨hs.setField hr hk hv, trivial⟩

private theorem bindOne_agrees {r : Nat} (hr : r ∈ w \ {0}) (key : String) (v : Json) :
    Agrees g w (Variables.bindOne r key v) (Variables.bindOne r key v) fun _ _ => True := by
  have hset {w' : Set Nat} (hw : w ⊆ w') {v : Value} (hv : v.Within w') :
      Agrees g w' (Eval.setField r (Value.ofText key) v) (Eval.setField r (Value.ofText key) v)
        fun _ _ => True :=
    Same.agrees (setField_keeps (Set.sdiff_subset_sdiff_left hw hr) trivial hv)
  unfold Variables.bindOne
  split
  · rename_i hvalue
    exact hset subset_rfl (scalar_within hvalue)
  · exact (newTable_agrees (list_within _) rfl).bind fun w' hw t ht => hset hw ht
  · exact .pure trivial

private theorem bind_agrees (vars : Variables) :
    Agrees g w vars.bind vars.bind Value.Within := by
  have hempty : Agrees g w (Eval.onHeap (·.newTable Table.empty))
      (Eval.onHeap (·.newTable Table.empty)) fun w' r => r ∈ w' \ {0} :=
    fun s hs => Or.inr ⟨rfl, _, Set.subset_insert _ _, hs.newTable Table.within_empty rfl,
      hs.new_changeable⟩
  refine hempty.bind fun w₁ _ r hr => ?_
  let add (p : String × Json) (_ : PUnit) : Eval (ForInStep PUnit) := do
    Variables.bindOne r p.1 p.2
    pure (.yield ⟨⟩)
  have hvariables : Agrees g w₁ (forIn vars PUnit.unit add) (forIn vars PUnit.unit add)
      fun _ _ => True :=
    .forIn fun w₂ hw₂ p _ => (bindOne_agrees (Set.sdiff_subset_sdiff_left hw₂ hr) p.1 p.2).bind
      fun w₃ _ _ _ => .pure rfl
  refine hvariables.bind fun w₂ hw₂ _ _ => ?_
  have hwarnings : Keeps g w₂ (forIn vars.warnings PUnit.unit fun text _ => do
      Eval.report .warn text; pure (.yield ⟨⟩)) fun _ => True :=
    .forIn fun text _ => (Markup.report_keeps .warn text).bind fun _ _ => .pure rfl
  refine hwarnings.bindAgrees fun _ _ => ?_
  exact .pure (hw₂ hr.1)

theorem pageFor_agrees (hcall : Library.CallsAgree g call call') (script : String)
    (vars : Variables) :
    RunsAgree g w (Context.pageFor call script vars) (Context.pageFor call' script vars)
      fun _ _ => True := by
  refine (evaluate_agrees hcall script).bind fun w₁ _ f hf => ?_
  split
  · exact .throw _ _
  · refine (RunsAgree.lift (bind_agrees vars)).bind fun w₂ hw₂ table htable => ?_
    refine (guarded_agrees _ (hcall (hf.mono hw₂) (.one htable))).bind fun w₃ _ vs _ => ?_
    exact liftExcept_agrees _

end Pagewright.Page
