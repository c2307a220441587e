import Pagewright.Markup.Tag
import Pagewright.Proofs.Environments
import Pagewright.Proofs.LibraryCalls

/-! Chunks, components and tags in a confined store. -/
namespace Pagewright.Script

open Library (stringMeta)

variable {g : Globals} {w : Set Nat} {s : Store}

/-! Environments. -/

theorem Confined.setMetatable (h : Confined g w s) {r m : Nat} (hr : r ∈ w \ {0}) (hne : r ≠ 1)
    (hm : m ∉ w) (hsize : m < s.heap.tables.size) (htable : s.heap.table m = fallThrough) :
    Confined g w { s with heap := s.heap.setMetatable r (some m) } := by
  refine h.modify hr ?_ ?_
  · exact ⟨(h.contents r hr.1).list, (h.contents r hr.1).rest⟩
  · rintro m ⟨⟩
    exact ⟨hne, hm, hsize, htable⟩

/-- A new environment is visible, what it falls through to is not. -/
theorem Confined.newEnvironment (h : Confined g w s) :
    Confined g (insert s.heap.tables.size w) { s with heap := (s.heap.newEnvironment 0).2 } := by
  have hr := h.new_changeable
  rw [Heap.newEnvironment_snd, show fallsTo 0 = fallThrough from rfl]
  have hmade := h.newTable (Table.within_withRoom 0 1) rfl
  revert hmade
  rw [← s.heap.size_newTable (Table.withRoom 0 1)]
  generalize (s.heap.newTable (Table.withRoom 0 1)).2 = h₁
  intro hmade
  have hhidden : Confined g (insert s.heap.tables.size w)
      { s with heap := (h₁.newTable fallThrough).2 } := hmade.newHidden rfl
  have hlinked : Confined g (insert s.heap.tables.size w) { s with
      heap := (h₁.newTable fallThrough).2.setMetatable s.heap.tables.size
        (some h₁.tables.size) } := by
    have hroom : stringMeta < s.heap.tables.size := h.room
    refine hhidden.setMetatable hr (by unfold stringMeta at hroom; omega) (fun hm => ?_) ?_ ?_
    · exact Nat.lt_irrefl _ (hmade.bounded _ hm)
    · exact (h₁.size_newTable fallThrough).symm ▸ Nat.lt_succ_self _
    · exact (h₁.table_newTable fallThrough _).trans (if_pos rfl)
  exact hlinked.setField hr trivial hr.1

theorem newEnvironment_agrees :
    Agrees g w Chunk.newEnvironment Chunk.newEnvironment Value.Within := by
  intro s hs
  have hrun : Chunk.newEnvironment s = .ok (.table s.heap.tables.size)
      { s with heap := (s.heap.newEnvironment s.globals).2 } := rfl
  have hconfined : Confined g (insert s.heap.tables.size w)
      { s with heap := (s.heap.newEnvironment 0).2 } :=
    hs.newEnvironment
  rw [← hs.globals] at hconfined
  refine Or.inr ⟨rfl, insert s.heap.tables.size w, Set.subset_insert _ _, ?_⟩
  rw [hrun]
  exact ⟨hconfined, Set.mem_insert _ _⟩

/-! Chunks. -/

def LoadedWithin (w : Set Nat) (r : Except Bytes Value) : Prop := ∀ f, r = .ok f → f.Within w

theorem load_keeps (source name : Bytes) {env : Value} (h : env.Within w) :
    Keeps g w (Chunk.load source name env) (LoadedWithin w) := by
  unfold Chunk.load
  refine Same.get.bind fun s _ => ?_
  split
  · refine .pure ?_
    rintro f ⟨⟩
  · have hcell : Keeps g w (Eval.onHeap (·.newCell env)) fun _ => True :=
      .onHeap fun s hs => ⟨hs.newCell h, trivial⟩
    refine hcell.bind fun cell _ => ?_
    have hclosure (c : Closure) : Keeps g w (Eval.onHeap (·.newClosure c)) fun _ => True :=
      .onHeap fun s hs => ⟨hs.newClosure c, trivial⟩
    refine (hclosure _).bind fun r _ => .pure ?_
    rintro f ⟨⟩
    trivial

theorem loadValue_keeps (source name : Bytes) {env : Value} (h : env.Within w) :
    Keeps g w (Chunk.loadValue source name env) (LoadedWithin w) := by
  unfold Chunk.loadValue
  refine .ite (fun _ => load_keeps source name h) fun _ => ?_
  refine (load_keeps _ name h).bind fun r hr => ?_
  cases r with
  | error e => exact load_keeps source name h
  | ok f => exact .pure hr

/-! Errors that end in a value. -/

theorem tryCatch_ok {α β : Type} {e : Eval α} {s s' : Store} {a : α} (h : e s = .ok a s')
    (f : α → β) (k : Stop → Eval β) : tryCatch (f <$> e) k s = .ok (f a) s' := by
  change EStateM.tryCatch (EStateM.map f e) k s = _
  unfold EStateM.tryCatch EStateM.map
  rw [h]

theorem tryCatch_error {α β : Type} {e : Eval α} {s s' : Store} {stop : Stop}
    (h : e s = .error stop s') (f : α → β) (k : Stop → Eval β) :
    tryCatch (f <$> e) k s = k stop s' := by
  change EStateM.tryCatch (EStateM.map f e) k s = _
  unfold EStateM.tryCatch EStateM.map
  rw [h]
  rfl

theorem Agrees.recover {α β : Type} {e e' : Eval α} {P : Set Nat → α → Prop}
    {Q : Set Nat → β → Prop} (h : Agrees g w e e' P) {f : α → β} {b : β}
    {k : Stop → Eval β} (hf : ∀ w' a, P w' a → Q w' (f a)) (hb : ∀ w', Q w' b)
    (hexhausted : ∀ s, k .exhausted s = .error .exhausted s)
    (hk : ∀ e s, e ≠ .exhausted → k e s = .ok b s) :
    Agrees g w (tryCatch (f <$> e) k) (tryCatch (f <$> e') k) Q := by
  intro s hs
  rcases h s hs with ⟨s', hstop⟩ | ⟨heq, w', hw, hends⟩
  · exact Or.inl ⟨s', (tryCatch_error hstop f k).trans (hexhausted s')⟩
  · cases hr : e' s with
    | ok a s' =>
        rw [hr] at hends
        rw [tryCatch_ok (heq.trans hr), tryCatch_ok hr]
        exact Or.inr ⟨rfl, w', hw, hends.1, hf w' a hends.2⟩
    | error stop s' =>
        rw [hr] at hends
        rw [tryCatch_error (heq.trans hr), tryCatch_error hr]
        cases stop with
        | raised v =>
            rw [hk _ s' Stop.noConfusion]
            exact Or.inr ⟨rfl, w', hw, hends.1, hb w'⟩
        | fault f =>
            rw [hk _ s' Stop.noConfusion]
            exact Or.inr ⟨rfl, w', hw, hends, hb w'⟩
        | exhausted => exact Or.inl ⟨s', hexhausted s'⟩

end Pagewright.Script

namespace Pagewright.Markup

open Script Script.Library

variable {g : Globals} {w : Set Nat} {call call' : Callback}

/-! Components. -/

theorem Component.attempt_agrees {α : Type} {e e' : Eval α} {P : Set Nat → α → Prop}
    (h : Agrees g w e e' P) :
    Agrees g w (Component.attempt e) (Component.attempt e') fun w' o =>
      ∀ a, o = some a → P w' a := by
  refine h.recover (b := none) (fun w' a ha => ?_) (fun w' => ?_) (fun _ => rfl)
    fun stop s hstop => ?_
  · rintro _ ⟨⟩
    exact ha
  · rintro _ ⟨⟩
  · cases stop with
    | exhausted => exact absurd rfl hstop
    | raised v => rfl
    | fault f => rfl

def OptionWithin (w : Set Nat) (o : Option Value) : Prop := ∀ v, o = some v → v.Within w

@[simp] private theorem optionWithin_none : OptionWithin w none := by
  rintro v ⟨⟩

theorem Component.attempt_call_agrees (hcall : CallsAgree g call call') {f : Value}
    {args : List Value} (hf : f.Within w) (hargs : AllWithin w args) :
    Agrees g w (return (← Component.attempt (call f args)).map (·.headD .nil))
      (return (← Component.attempt (call' f args)).map (·.headD .nil)) OptionWithin := by
  refine (Component.attempt_agrees (hcall hf hargs)).bind fun w' _ o ho => .pure ?_
  intro v hv
  obtain ⟨vs, hvs, rfl⟩ := Option.map_eq_some_iff.mp hv
  exact (ho vs hvs).headD

theorem Component.load_agrees (hcall : CallsAgree g call call') (source loader : String) :
    Agrees g w (Component.load call source loader) (Component.load call' source loader)
      OptionWithin := by
  refine newEnvironment_agrees.bind fun w' _ env henv => ?_
  refine (loadValue_keeps _ _ henv).bindAgrees fun r hr => ?_
  cases r with
  | error e => exact .pure optionWithin_none
  | ok f => exact Component.attempt_call_agrees hcall (hr f rfl) allWithin_nil

theorem Component.apply_agrees (hcall : CallsAgree g call call') {f : Value} (hf : f.Within w)
    {props : Option Value} (hprops : OptionWithin w props) :
    Agrees g w (Component.apply call f props) (Component.apply call' f props)
      OptionWithin := by
  have hrest {w' : Set Nat} (hw : w ⊆ w') (v : Value) (hv : v.Within w') :=
    Component.attempt_call_agrees hcall (hf.mono hw) (.one hv)
  unfold Component.apply
  split
  · exact hrest subset_rfl _ (hprops _ rfl)
  · exact (newTable_agrees Table.within_empty rfl).bind fun w' hw v hv => hrest hw v hv

theorem Component.define_agrees (hcall : CallsAgree g call call') (loader : String)
    {props : Option Value} (hprops : OptionWithin w props) :
    Agrees g w (Component.define call loader props) (Component.define call' loader props)
      fun _ _ => True := by
  refine Same.get.bindAgrees fun s _ => ?_
  split
  · exact .pure trivial
  · refine (Component.load_agrees hcall _ loader).bind fun w₁ hw₁ o ho => ?_
    cases o with
    | none => exact .pure trivial
    | some f =>
        dsimp only
        split
        · exact .pure trivial
        · refine (Component.apply_agrees hcall (ho f rfl) fun v hv => (hprops v hv).mono hw₁).bind
            fun w₂ _ o _ => ?_
          cases o with
          | none => exact .pure trivial
          | some result =>
              refine Same.get.bindAgrees fun s _ => ?_
              split
              · exact .pure trivial
              · exact .pure trivial

theorem report_keeps (level : Level) (text : String) :
    Keeps g w (Eval.report level text) fun _ => True := by
  intro s hs
  refine Or.inr ⟨rfl, w, subset_rfl, ?_, rfl, trivial⟩
  exact hs.other rfl rfl rfl hs.cells hs.threads hs.main_thread

theorem Component.render_agrees (hcall : CallsAgree g call call') (name loader : String)
    {props : Option Value} (hprops : OptionWithin w props) :
    Agrees g w (Component.render call name loader props)
      (Component.render call' name loader props) fun _ _ => True := by
  refine (Component.define_agrees hcall loader hprops).bind fun w' _ d _ => ?_
  cases d with
  | ok d => exact .pure trivial
  | error f =>
      refine (report_keeps _ _).bindAgrees fun _ _ => ?_
      exact .pure trivial

/-! Tags. -/

theorem Binding.call_agrees (hcall : CallsAgree g call call') (name : String) (b : Binding)
    {args : List Value} (h : AllWithin w args) :
    Agrees g w (b.call call name args) (b.call call' name args) Value.Within := by
  refine Same.get.bindAgrees fun s _ => ?_
  cases b with
  | element spec => exact .pure trivial
  | custom loader =>
      have hprops : OptionWithin w args.head? := fun v hv => h v (List.mem_of_head? hv)
      exact (Component.render_agrees hcall name loader hprops).bind fun w' _ text _ => .pure trivial
  | styleSheet =>
      refine .pure ?_
      cases StyleSheet.render? s.heap.table args with
      | none => trivial
      | some text => trivial

end Pagewright.Markup
