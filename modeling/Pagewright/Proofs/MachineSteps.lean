import Pagewright.Proofs.Answers

/-! One step of the machine among visible values: it comes to visible values again. -/
namespace Pagewright.Script

variable {g : Globals} {w : Set Nat}

def StackWithin (w : Set Nat) (stack : List Frame) : Prop := ∀ f ∈ stack, f.Within w

theorem StackWithin.mono {w' : Set Nat} {stack : List Frame} (h : StackWithin w stack)
    (hw : w ⊆ w') : StackWithin w' stack :=
  fun f hf => (h f hf).mono hw

@[simp] theorem stackWithin_nil : StackWithin w [] := fun _ hf => absurd hf List.not_mem_nil

@[simp] theorem stackWithin_cons {f : Frame} {stack : List Frame} :
    StackWithin w (f :: stack) ↔ f.Within w ∧ StackWithin w stack :=
  List.forall_mem_cons

structure Config.Confined (g : Globals) (w : Set Nat) (c : Config) : Prop where
  control : c.control.Within w
  stack : StackWithin w c.stack
  store : Script.Confined g w c.store

def Frame.asksLostName (h : Heap) (vs : List Value) : Frame → Bool
  | .receiver name .. => h.asksLostName (Machine.head vs) (.string name)
  | .key o _ => h.asksLostName o (Machine.head vs)
  | _ => false

/-- Whether the next step asks an environment for a name it has lost. -/
def Config.asksLostName (c : Config) : Bool :=
  match c.control, c.stack with
  | .deliver vs, f :: _ => f.asksLostName c.store.heap vs
  | _, _ => false

def Place.object : Place → Value
  | .cell _ => .nil
  | .field o _ _ => o

def Frame.assignsTo : Frame → List Value
  | .assigned places _ => places.map Place.object
  | .assigning rest _ => rest.map fun p => p.1.object
  | _ => []

def Config.assignsTo (c : Config) : List Value :=
  match c.control, c.stack with
  | .deliver _, f :: _ => f.assignsTo
  | _, _ => []

/-- What a step from a configuration leads to is made of visible values. Only going on changes the
store, and the library is asked for what is applied. -/
def Next.Confined (g : Globals) (w : Set Nat) (c : Config) : Next → Prop
  | .more c' => c'.Confined g w
  | .library f args site stack store =>
    c.control = .apply f args site ∧ store = c.store ∧ c.Confined g w ∧ StackWithin w stack
  | .finished vs store => AllWithin w vs ∧ store = c.store ∧ Script.Confined g w c.store
  | .failed v store => v.Within w ∧ store = c.store ∧ Script.Confined g w c.store

namespace Machine

variable {stack : List Frame} {store : Store}

/-! Going on. -/

theorem fault_confined (f : Fault) (site : Option Site) (hstack : StackWithin w stack)
    (hs : Confined g w store) : (fault f site stack store).Confined g w :=
  ⟨trivial, hstack, hs⟩

theorem deliver_confined {vs : List Value} (hvs : AllWithin w vs) (hstack : StackWithin w stack)
    (hs : Confined g w store) : (deliver vs stack store).Confined g w :=
  ⟨hvs, hstack, hs⟩

theorem evalAll_confined (es : List Expr) {env : Env} (henv : env.Within w)
    (hstack : StackWithin w stack) (hs : Confined g w store) :
    (evalAll es env stack store).Confined g w := by
  unfold evalAll
  split
  · exact deliver_confined allWithin_nil hstack hs
  · exact ⟨henv, hstack, hs⟩
  · exact ⟨henv, stackWithin_cons.mpr ⟨⟨allWithin_nil, henv⟩, hstack⟩, hs⟩

theorem callBack_confined {f : Value} {args : List Value} (hf : f.Within w)
    (hargs : AllWithin w args) (site : Option Site) (hstack : StackWithin w stack)
    (hs : Confined g w store) : (callBack f args site stack store).Confined g w := by
  unfold callBack
  dsimp only
  split
  · exact fault_confined _ site hstack hs
  · exact ⟨⟨hf, hargs⟩, stackWithin_cons.mpr ⟨trivial, hstack⟩, hs.depth _⟩

theorem answer_confined {a : Answer} (ha : a.Settled w) (site : Site)
    (hstack : StackWithin w stack) (hs : Confined g w store) :
    (answer a site stack store).Confined g w := by
  cases a with
  | value v => exact deliver_confined (.one ha) hstack hs
  | call f args => exact absurd ha id
  | fault f => exact fault_confined f _ hstack hs

private theorem verdict_confined {a : Answer} (ha : a.Settled w) (negated : Bool) (site : Site)
    (hstack : StackWithin w stack) (hs : Confined g w store) :
    (verdict a negated site stack store).Confined g w := by
  cases a with
  | value v => exact deliver_confined (.one trivial) hstack hs
  | call f args => exact absurd ha id
  | fault f => exact fault_confined f _ hstack hs

/-! Calls. -/

private theorem activation?_within {site : Option Site} {caller : Depth} {rest : List Frame}
    (h : activation? stack = some (site, caller, rest)) (hstack : StackWithin w stack) :
    StackWithin w rest := by
  induction stack with
  | nil => cases h
  | cons f stack ih =>
      obtain ⟨-, hrest⟩ := stackWithin_cons.mp hstack
      unfold activation? at h
      split at h
      · cases h
      · rename_i heq
        obtain ⟨rfl, rfl⟩ := List.cons.inj heq
        cases h
        exact hrest
      · cases h
      · cases h
      · rename_i heq
        obtain ⟨rfl, rfl⟩ := List.cons.inj heq
        exact ih h hrest

theorem enter_confined (c : Closure) {args : List Value} (hargs : AllWithin w args)
    (site : Option Site) (caller : Depth) (hstack : StackWithin w stack)
    (hs : Confined g w store) : (enter c args site caller stack store).Confined g w := by
  refine ⟨?_, stackWithin_cons.mpr ⟨trivial, hstack⟩, hs.newCells (hargs.adjust _)⟩
  change AllWithin w (if c.function.variadic then args.drop c.function.parameters else [])
  split
  · exact hargs.drop _
  · exact allWithin_nil

private theorem tailApply_confined {f : Value} {args : List Value} (hf : f.Within w)
    (hargs : AllWithin w args) (site : Site) (hstack : StackWithin w stack)
    (hs : Confined g w store) : (tailApply f args site stack store).Confined g w := by
  unfold tailApply
  split
  · rename_i hrest
    exact enter_confined _ hargs _ _ (activation?_within hrest hstack) hs
  · exact ⟨⟨hf, hargs⟩, stackWithin_cons.mpr ⟨trivial, hstack⟩, hs⟩

private theorem applyOrTail_confined (tail : Bool) {f : Value} {args : List Value} (hf : f.Within w)
    (hargs : AllWithin w args) (site : Site) (hstack : StackWithin w stack)
    (hs : Confined g w store) : (applyOrTail tail f args site stack store).Confined g w := by
  unfold applyOrTail
  split
  · exact tailApply_confined hf hargs site hstack hs
  · exact ⟨⟨hf, hargs⟩, hstack, hs⟩

theorem evalCall_confined (e : Expr) (tail : Bool) {env : Env} (henv : env.Within w)
    (hstack : StackWithin w stack) (hs : Confined g w store) :
    (evalCall e tail env stack store).Confined g w := by
  unfold evalCall
  split
  · exact ⟨henv, stackWithin_cons.mpr ⟨henv, hstack⟩, hs⟩
  · exact ⟨henv, stackWithin_cons.mpr ⟨henv, hstack⟩, hs⟩
  · exact ⟨henv, hstack, hs⟩

/-! New tables. -/

theorem storeWaiting_confined {c : Construction} (hc : c.Within w) {more : List Value}
    (hmore : AllWithin w more) (hs : Confined g w store) :
    Confined g w (storeWaiting c more store) :=
  hs.storeItems hc.1 (allWithin_append.mpr ⟨allWithin_reverse.mpr hc.2, hmore⟩) c.stored

theorem constructField_confined {c : Construction} (hc : c.Within w) (f : Field)
    (rest : List Field) {env : Env} (henv : env.Within w) (site : Site)
    (hstack : StackWithin w stack) (hs : Confined g w store) :
    (constructField c f rest env site stack store).Confined g w := by
  unfold constructField
  split
  · refine ⟨henv, stackWithin_cons.mpr ⟨?_, hstack⟩, hs⟩
    split
    · exact hc
    · exact ⟨hc, henv⟩
  · exact ⟨henv, stackWithin_cons.mpr ⟨⟨hc, Literal.within _, henv⟩, hstack⟩, hs⟩
  · exact ⟨henv, stackWithin_cons.mpr ⟨⟨hc, henv⟩, hstack⟩, hs⟩

theorem construct_confined {c : Construction} (hc : c.Within w) (fields : List Field) {env : Env}
    (henv : env.Within w) (site : Site) (hstack : StackWithin w stack) (hs : Confined g w store) :
    (construct c fields env site stack store).Confined g w := by
  have hstored := storeWaiting_confined hc allWithin_nil hs
  unfold construct
  split
  · exact deliver_confined (.one hc.1.1) hstack hstored
  · rename_i f rest
    dsimp only
    split
    · exact constructField_confined hc f rest henv site hstack hs
    · exact constructField_confined (c := ⟨c.table, c.stored + c.waiting.length, []⟩)
        ⟨hc.1, allWithin_nil⟩ f rest henv site hstack hstored

/-! Expressions and statements. -/

private theorem cell_within (hs : Confined g w store) (r : Nat) :
    (store.heap.cells.getD r .nil).Within w := by
  rw [Array.getD_eq_getD_getElem?]
  cases hv : store.heap.cells[r]? with
  | none => trivial
  | some v => exact hs.cells v (Array.mem_of_getElem? hv)

private theorem eval_confined (e : Expr) {env : Env} (henv : env.Within w)
    (hstack : StackWithin w stack) (hs : Confined g w store) :
    ∃ w', w ⊆ w' ∧ (eval e env stack store).Confined g w' := by
  have hpushed (f : Frame) (hf : f.Within w) (e : Expr) :
      ∃ w', w ⊆ w' ∧ Config.Confined g w' ⟨.eval e env, f :: stack, store⟩ :=
    ⟨w, subset_rfl, henv, stackWithin_cons.mpr ⟨hf, hstack⟩, hs⟩
  have hdelivered {vs : List Value} (hvs : AllWithin w vs) :
      ∃ w', w ⊆ w' ∧ Config.Confined g w' (deliver vs stack store) :=
    ⟨w, subset_rfl, deliver_confined hvs hstack hs⟩
  unfold eval
  cases e with
  | constant l => exact hdelivered (.one l.within)
  | extra => exact hdelivered henv
  | «variable» i => exact hdelivered (.one (cell_within hs _))
  | index o k line => exact hpushed (.object k env line) henv o
  | call f args line => exact ⟨w, subset_rfl, evalCall_confined _ false henv hstack hs⟩
  | method o name args line => exact ⟨w, subset_rfl, evalCall_confined _ false henv hstack hs⟩
  | function f =>
      exact ⟨w, subset_rfl, deliver_confined (.one trivial) hstack (hs.newClosure _)⟩
  | unary op e line => exact hpushed (.unary op (env.site line)) trivial e
  | binary op l r line => exact hpushed (.left op r env line) henv l
  | both l r => exact hpushed (.both r env) henv l
  | either l r => exact hpushed (.either r env) henv l
  | table list others fields line =>
      have hw : w ⊆ insert store.heap.tables.size w := Set.subset_insert _ _
      refine ⟨_, hw, construct_confined (c := ⟨store.heap.tables.size, 0, []⟩)
        ⟨hs.new_changeable, allWithin_nil⟩ fields (henv.mono hw) _ (hstack.mono hw) ?_⟩
      exact hs.newTable (Table.within_withRoom _ _) rfl
  | first e => exact hpushed .first trivial e

theorem target_confined (targets : List Expr) {places : List Place}
    (hplaces : ∀ p ∈ places, p.Within w) (values : List Expr) {env : Env} (henv : env.Within w)
    (hstack : StackWithin w stack) (hs : Confined g w store) :
    (target places values env stack store targets).Confined g w := by
  induction targets generalizing places with
  | nil => exact evalAll_confined values henv (stackWithin_cons.mpr ⟨hplaces, hstack⟩) hs
  | cons e rest ih =>
      unfold target
      split
      · rename_i heq
        cases heq
      · rename_i heq
        obtain ⟨rfl, rfl⟩ := List.cons.inj heq
        exact ih (List.forall_mem_cons.mpr ⟨trivial, hplaces⟩)
      · rename_i heq
        obtain ⟨rfl, rfl⟩ := List.cons.inj heq
        exact ⟨henv, stackWithin_cons.mpr ⟨⟨hplaces, henv⟩, hstack⟩, hs⟩
      · rename_i heq
        obtain ⟨rfl, rfl⟩ := List.cons.inj heq
        exact ih hplaces

theorem assign_confined (chunk : Bytes) {todo : List (Place × Value)}
    (htodo : ∀ p ∈ todo, p.1.Within w ∧ p.2.Within w)
    (hobjects : ∀ p ∈ todo, p.1.object.Changeable w) (hstack : StackWithin w stack)
    (hs : Confined g w store) : (assign chunk stack store todo).Confined g w := by
  induction todo generalizing store with
  | nil => exact deliver_confined allWithin_nil hstack hs
  | cons p rest ih =>
      obtain ⟨⟨hplace, hv⟩, hrest⟩ := List.forall_mem_cons.mp htodo
      obtain ⟨hobject, hothers⟩ := List.forall_mem_cons.mp hobjects
      obtain ⟨place, v⟩ := p
      cases place with
      | cell r => exact ih hrest hothers (hs.setCell hv r)
      | field o k line =>
          have hsettled : (storing store longestChain o k v).Settled w k :=
            storing_settled hs longestChain hobject k v
          unfold assign
          cases hstoring : storing store longestChain o k v with
          | field r k' =>
              rw [hstoring] at hsettled
              obtain ⟨hr, hk⟩ := hsettled
              exact ih hrest hothers (hs.setField hr (checkedKey_within hplace.2 hk) hv)
          | call f args =>
              rw [hstoring] at hsettled
              exact absurd hsettled id
          | fault f => exact fault_confined f _ hstack hs

private theorem exec_confined (rest block : List Stmt) {env : Env} (henv : env.Within w)
    (hstack : StackWithin w stack) (hs : Confined g w store) :
    (exec rest block env stack store).Confined g w := by
  cases rest with
  | nil => exact deliver_confined allWithin_nil hstack hs
  | cons st rest =>
      have hbelow : StackWithin w (.after rest block env :: stack) :=
        stackWithin_cons.mpr ⟨henv, hstack⟩
      have hover {f : Frame} (hf : f.Within w) : StackWithin w (f :: .after rest block env :: stack) :=
        stackWithin_cons.mpr ⟨hf, hbelow⟩
      unfold exec
      dsimp only
      cases st with
      | call e => exact ⟨henv, hbelow, hs⟩
      | locals n closes es line =>
          exact evalAll_confined es henv (stackWithin_cons.mpr ⟨henv, hstack⟩) hs
      | localFunction f =>
          refine ⟨henv, hstack, ?_⟩
          exact ((hs.newCell (v := .nil) trivial).newClosure _).setCell (v := .closure _) trivial _
      | assign targets es =>
          exact target_confined targets (fun p hp => absurd hp List.not_mem_nil) es henv hbelow hs
      | block b => exact ⟨henv, hbelow, hs⟩
      | whileLoop c b => exact ⟨henv, hover henv, hs⟩
      | untilLoop b => exact ⟨henv, hover henv, hs⟩
      | exitWhen c => exact ⟨henv, stackWithin_cons.mpr ⟨trivial, hstack⟩, hs⟩
      | branch c yes no => exact ⟨henv, hover henv, hs⟩
      | countLoop start limit step b line => exact evalAll_confined _ henv (hover henv) hs
      | eachLoop n es b line => exact evalAll_confined es henv (hover henv) hs
      | returns es =>
          have hreturning : StackWithin w (.returning :: stack) :=
            stackWithin_cons.mpr ⟨trivial, hstack⟩
          rcases es with _ | ⟨e, _ | ⟨e', es⟩⟩
          · exact evalAll_confined _ henv hreturning hs
          · cases e with
            | call f args line => exact evalCall_confined _ true henv hstack hs
            | method o name args line => exact evalCall_confined _ true henv hstack hs
            | _ => exact ⟨henv, hreturning, hs⟩
          · exact evalAll_confined _ henv hreturning hs
      | breakLoop => exact ⟨trivial, hstack, hs⟩
      | goto l line => exact ⟨trivial, hbelow, hs⟩
      | label name depth => exact ⟨henv, hstack, hs⟩

/-! Loops and locals. -/

theorem countRound_confined (c : Counter) (body : List Stmt) {env : Env} (henv : env.Within w)
    (hstack : StackWithin w stack) (hs : Confined g w store) :
    (countRound c body env stack store).Confined g w := by
  refine ⟨henv, stackWithin_cons.mpr ⟨henv, hstack⟩, hs.newCell ?_⟩
  cases c <;> trivial

theorem eachRound_confined {iterator state control : Value} (hi : iterator.Within w)
    (hstate : state.Within w) (hcontrol : control.Within w) (names : Nat) (body : List Stmt)
    {env : Env} (henv : env.Within w) (site : Site) (hstack : StackWithin w stack)
    (hs : Confined g w store) :
    (eachRound iterator state control names body env site stack store).Confined g w :=
  callBack_confined hi (allWithin_cons.mpr ⟨hstate, .one hcontrol⟩) _
    (stackWithin_cons.mpr ⟨⟨hi, hstate, henv⟩, hstack⟩) hs

private theorem bindLocals_confined (n : Nat) (closes : Option Nat) {vs : List Value}
    (hvs : AllWithin w vs) (rest block : List Stmt) {env : Env} (henv : env.Within w) (site : Site)
    (hstack : StackWithin w stack) (hs : Confined g w store) :
    (bindLocals n closes vs rest block env site stack store).Confined g w := by
  have hcells := hs.newCells (hvs.adjust n)
  unfold bindLocals
  dsimp only
  split
  · exact ⟨henv, hstack, hcells⟩
  · rename_i v hv
    obtain ⟨i, -, hi⟩ := Option.bind_eq_some_iff.mp hv
    split
    · exact ⟨henv, stackWithin_cons.mpr ⟨hvs.adjust n v (List.mem_of_getElem? hi), hstack⟩, hcells⟩
    · exact fault_confined _ _ hstack hs

/-! Coroutines. -/

theorem refuse_confined (f : Fault) (mode : ResumeMode) (site : Option Site)
    (hstack : StackWithin w stack) (hs : Confined g w store) :
    (refuse f mode site stack store).Confined g w := by
  cases mode with
  | flagged => exact deliver_confined (allWithin_cons.mpr ⟨trivial, .one trivial⟩) hstack hs
  | plain => exact fault_confined f site hstack hs

theorem resume_confined (t : Nat) {args : List Value} (hargs : AllWithin w args)
    (mode : ResumeMode) (site : Option Site) (hstack : StackWithin w stack)
    (hs : Confined g w store) : (resume t args mode site stack store).Confined g w := by
  have hthread := hs.thread_within t
  -- Only a thread that waits is resumed, so it is not the one that is running all along.
  have hentered (hne : store.heap.threads.getD t .dead ≠ .running) (scripts : Nat) :
      t ≠ 0 ∧ Confined g w { store with
        heap := store.heap.setThread t .running
        running := some t
        depth := ⟨scripts, store.depth.library + 1⟩ } :=
    have ht := hs.ne_zero_of_not_running hne
    ⟨ht, (hs.setThread (t := .running) trivial ht).switch _ _⟩
  unfold resume
  dsimp only
  split
  · exact refuse_confined _ mode site hstack hs
  · cases hth : store.heap.threads.getD t .dead with
    | fresh f =>
        rw [hth] at hthread
        obtain ⟨ht, hs'⟩ := hentered (by rw [hth]; exact Thread.noConfusion) 0
        exact ⟨⟨hthread, hargs⟩, stackWithin_cons.mpr ⟨ht, hstack⟩, hs'⟩
    | suspended frames scripts =>
        rw [hth] at hthread
        obtain ⟨ht, hs'⟩ := hentered (by rw [hth]; exact Thread.noConfusion) scripts
        have hbelow : StackWithin w (.coroutine t mode site store.running store.depth :: stack) :=
          stackWithin_cons.mpr ⟨ht, hstack⟩
        refine deliver_confined hargs (fun f hf => ?_) hs'
        rcases List.mem_append.mp hf with hf | hf
        · exact hthread f hf
        · exact hbelow f hf
    | running => exact refuse_confined _ mode site hstack hs
    | dead => exact refuse_confined _ mode site hstack hs

private theorem cut_within {above above' rest : List Frame} {t : Nat} {mode : ResumeMode}
    {resumer : Option Nat} {caller : Depth}
    (h : cut above stack = some (above', t, mode, resumer, caller, rest))
    (habove : StackWithin w above) (hstack : StackWithin w stack) :
    StackWithin w above' ∧ t ≠ 0 ∧ StackWithin w rest := by
  induction stack generalizing above with
  | nil => cases h
  | cons f stack ih =>
      obtain ⟨hf, hrest⟩ := stackWithin_cons.mp hstack
      unfold cut at h
      split at h
      · cases h
      · rename_i heq
        obtain ⟨rfl, rfl⟩ := List.cons.inj heq
        cases h
        exact ⟨habove, hf, hrest⟩
      · rename_i heq
        obtain ⟨rfl, rfl⟩ := List.cons.inj heq
        exact ih h (stackWithin_cons.mpr ⟨hf, habove⟩) hrest

theorem handed_within {vs : List Value} (hvs : AllWithin w vs) (mode : ResumeMode) :
    AllWithin w (handed mode vs) := by
  cases mode with
  | flagged => exact allWithin_cons.mpr ⟨trivial, hvs⟩
  | plain => exact hvs

private theorem yield_confined {vs : List Value} (hvs : AllWithin w vs) (site : Option Site)
    (hstack : StackWithin w stack) (hs : Confined g w store) :
    (yield vs site stack store).Confined g w := by
  unfold yield
  split
  · exact fault_confined _ site hstack hs
  · rename_i above t mode resumer caller rest hcut
    obtain ⟨habove, ht, hrest⟩ := cut_within hcut stackWithin_nil hstack
    refine deliver_confined (handed_within hvs mode) hrest ?_
    have hthread : Thread.Within w (.suspended above.reverse store.depth.scripts) :=
      fun f hf => habove f (List.mem_reverse.mp hf)
    exact (hs.setThread hthread ht).switch _ _

/-! Applying. -/

theorem protect_confined {handler : Option Value} (hh : ∀ h ∈ handler, h.Within w) {f : Value}
    {args : List Value} (hf : f.Within w) (hargs : AllWithin w args) (site : Option Site)
    (hstack : StackWithin w stack) (hs : Confined g w store) :
    (protect handler f args site stack store).Confined g w := by
  have hprotected : StackWithin w (.protect handler site store.depth :: stack) :=
    stackWithin_cons.mpr ⟨hh, hstack⟩
  unfold protect
  dsimp only
  split
  · exact fault_confined _ none hprotected hs
  · exact ⟨⟨hf, hargs⟩, hprotected, hs.depth _⟩

private theorem raiseError_confined {args : List Value} (hargs : AllWithin w args)
    (site : Option Site) (hstack : StackWithin w stack) (hs : Confined g w store) :
    (raiseError args site stack store).Confined g w := by
  unfold raiseError
  dsimp only
  split
  · exact fault_confined _ site hstack hs
  · exact ⟨trivial, hstack, hs⟩
  · exact ⟨hargs.headD, hstack, hs⟩

private theorem apply_confined {f : Value} {args : List Value} (hf : f.Within w)
    (hargs : AllWithin w args) (site : Option Site) (hstack : StackWithin w stack)
    (hs : Confined g w store) :
    (apply f args site stack store).Confined g w ⟨.apply f args site, stack, store⟩ := by
  have hlibrary : Next.Confined g w ⟨.apply f args site, stack, store⟩
      (.library f args site stack store) := ⟨rfl, rfl, ⟨⟨hf, hargs⟩, hstack, hs⟩, hstack⟩
  have hfault (f : Fault) : (fault f site stack store).Confined g w :=
    fault_confined f site hstack hs
  unfold apply
  split
  · dsimp only
    split
    · exact hfault _
    · exact enter_confined _ hargs site _ hstack (hs.depth _)
  · split
    · exact hfault _
    · obtain ⟨hf, hargs⟩ := allWithin_cons.mp hargs
      exact protect_confined (fun _ hh => by cases hh) hf hargs site hstack hs
  · split
    · obtain ⟨hf, hargs⟩ := allWithin_cons.mp hargs
      obtain ⟨hh, hargs⟩ := allWithin_cons.mp hargs
      split
      · exact protect_confined (fun _ heq => Option.some.inj heq ▸ hh) hf hargs site hstack hs
      · exact hfault _
    · exact hfault _
  · exact raiseError_confined hargs site hstack hs
  · split
    · exact resume_confined _ (allWithin_cons.mp hargs).2 _ site hstack hs
    · exact hfault _
  · exact yield_confined hargs site hstack hs
  · split
    · exact resume_confined _ hargs _ site hstack hs
    · exact hlibrary
  · exact hlibrary
  · exact hlibrary
  · have hcall : Event.call ≠ Event.index := Event.ne_index (by simp)
    rw [hs.metamethod hf hcall]
    exact hfault _

/-! Frames. -/

theorem closeValue_confined {c : Value} (hc : c.Within w) {e : Exit} (he : e.Within w)
    (hstack : StackWithin w stack) (hs : Confined g w store) :
    (receive.closeValue c e stack store).Confined g w := by
  have hclose : Event.close ≠ Event.index := Event.ne_index (by simp)
  unfold receive.closeValue
  rw [hs.metamethod hc hclose]
  cases e with
  | done vs => exact deliver_confined he hstack hs
  | _ => exact ⟨he, hstack, hs⟩

private theorem stackWithin_first (isOpen : Bool) (h : StackWithin w stack) :
    StackWithin w (if isOpen then .first :: stack else stack) := by
  split
  · exact stackWithin_cons.mpr ⟨trivial, h⟩
  · exact h

private theorem receive_confined {vs : List Value} (hvs : AllWithin w vs) {frame : Frame}
    (hframe : frame.Within w) (hstack : StackWithin w stack) (hc : Confined g w store)
    (hlost : frame.asksLostName store.heap vs → 0 ∈ w)
    (hassigns : ∀ v ∈ frame.assignsTo, v.Changeable w) :
    (receive vs frame stack store).Confined g w := by
  have hv : (head vs).Within w := hvs.headD
  unfold receive
  dsimp only
  cases frame with
  | items rest done env =>
      obtain ⟨hdone, henv⟩ := hframe
      cases rest with
      | nil =>
          exact deliver_confined (allWithin_append.mpr ⟨allWithin_reverse.mpr hdone, hvs⟩) hstack hc
      | cons e rest =>
          exact ⟨henv, stackWithin_cons.mpr ⟨⟨allWithin_cons.mpr ⟨hv, hdone⟩, henv⟩, hstack⟩, hc⟩
  | callee args env line tail =>
      exact evalAll_confined args hframe
        (stackWithin_cons.mpr ⟨⟨hv, allWithin_nil⟩, hstack⟩) hc
  | arguments f before site tail =>
      exact applyOrTail_confined tail hframe.1 (allWithin_append.mpr ⟨hframe.2, hvs⟩) site hstack hc
  | receiver name args env line tail =>
      have hkept := index_settled hc longestChain subset_rfl hv hlost
      exact answer_confined hkept _ (stackWithin_cons.mpr ⟨⟨hv, hframe⟩, hstack⟩) hc
  | found o args env line tail =>
      exact evalAll_confined args hframe.2
        (stackWithin_cons.mpr ⟨⟨hv, .one hframe.1⟩, hstack⟩) hc
  | first => exact deliver_confined (.one hv) hstack hc
  | unary op site => exact answer_confined (unary_settled hc op hv) site hstack hc
  | left op r env line => exact ⟨hframe, stackWithin_cons.mpr ⟨hv, hstack⟩, hc⟩
  | right op l site =>
      cases op with
      | arith op => exact answer_confined (arith_settled hc op hframe hv) site hstack hc
      | bits op => exact answer_confined (bitwise_settled hc op hframe hv) site hstack hc
      | concat => exact answer_confined (concat_settled hc hframe hv) site hstack hc
      | compare op =>
          exact verdict_confined (compareValues_settled hc op hframe hv) _ site hstack hc
  | both r env =>
      dsimp only
      split
      · exact ⟨hframe, stackWithin_first r.isOpen hstack, hc⟩
      · exact deliver_confined (.one hv) hstack hc
  | either r env =>
      dsimp only
      split
      · exact deliver_confined (.one hv) hstack hc
      · exact ⟨hframe, stackWithin_first r.isOpen hstack, hc⟩
  | verdict negated => exact deliver_confined (.one trivial) hstack hc
  | object k env line => exact ⟨hframe, stackWithin_cons.mpr ⟨hv, hstack⟩, hc⟩
  | key o site =>
      have hkept := index_settled hc longestChain subset_rfl hframe hlost
      exact answer_confined hkept site hstack hc
  | spread c =>
      exact deliver_confined (.one hframe.1.1) hstack (storeWaiting_confined hframe hvs hc)
  | item c rest env site =>
      exact construct_confined (c := { c with waiting := head vs :: c.waiting })
        ⟨hframe.1.1, allWithin_cons.mpr ⟨hv, hframe.1.2⟩⟩ rest hframe.2 site hstack hc
  | fieldKey c e rest env site =>
      exact ⟨hframe.2, stackWithin_cons.mpr ⟨⟨hframe.1, hv, hframe.2⟩, hstack⟩, hc⟩
  | fieldValue c k rest env site =>
      obtain ⟨hcons, hk, henv⟩ := hframe
      dsimp only
      split
      · rename_i k' hk'
        exact construct_confined hcons rest henv site hstack
          (hc.setField hcons.1 (checkedKey_within hk hk') hv)
      · exact fault_confined _ _ hstack hc
  | after rest block env => exact ⟨hframe, hstack, hc⟩
  | locals n closes rest block env site =>
      exact bindLocals_confined n closes hvs rest block hframe site hstack hc
  | targetObject k line rest places values env =>
      exact ⟨hframe.2, stackWithin_cons.mpr ⟨⟨hv, hframe.1, hframe.2⟩, hstack⟩, hc⟩
  | targetKey o line rest places values env =>
      have hplace : Place.Within w (.field o (head vs) line) := ⟨hframe.1, hv⟩
      exact target_confined rest (List.forall_mem_cons.mpr ⟨hplace, hframe.2.1⟩) values
        hframe.2.2 hstack hc
  | assigned places chunk =>
      refine assign_confined chunk (fun p hp => ?_) (fun p hp => ?_) hstack hc
      · obtain ⟨hplace, hvalue⟩ := List.of_mem_zip hp
        exact ⟨hframe p.1 hplace, allWithin_reverse.mpr (hvs.adjust _) p.2 hvalue⟩
      · exact hassigns _ (List.mem_map_of_mem (List.of_mem_zip hp).1)
  | assigning rest chunk =>
      exact assign_confined chunk hframe (fun p hp => hassigns _ (List.mem_map_of_mem hp)) hstack hc
  | branch yes no env => exact ⟨hframe, hstack, hc⟩
  | whileTest c b env =>
      dsimp only
      split
      · exact ⟨hframe, stackWithin_cons.mpr ⟨hframe, hstack⟩, hc⟩
      · exact deliver_confined allWithin_nil hstack hc
  | whileBody c b env => exact ⟨hframe, stackWithin_cons.mpr ⟨hframe, hstack⟩, hc⟩
  | untilBody b env => exact ⟨hframe, stackWithin_cons.mpr ⟨hframe, hstack⟩, hc⟩
  | exitTest =>
      dsimp only
      split
      · exact ⟨trivial, hstack, hc⟩
      · exact deliver_confined allWithin_nil hstack hc
  | countRange b env site =>
      dsimp only
      split
      · exact countRound_confined _ b hframe hstack hc
      · exact deliver_confined allWithin_nil hstack hc
      · exact fault_confined _ _ hstack hc
  | countBody c b env =>
      dsimp only
      split
      · exact countRound_confined _ b hframe hstack hc
      · exact deliver_confined allWithin_nil hstack hc
  | eachRange n b env site =>
      dsimp only
      split
      · exact fault_confined _ _ hstack hc
      · refine eachRound_confined hv (hvs.getD 1) (hvs.getD 2) n b hframe site ?_ hc
        split
        · exact stackWithin_cons.mpr ⟨hvs.getD 3, hstack⟩
        · exact hstack
  | eachStep f s n b env site =>
      obtain ⟨hf, hstate, henv⟩ := hframe
      dsimp only
      split
      · exact deliver_confined allWithin_nil hstack hc
      · exact ⟨henv, stackWithin_cons.mpr ⟨⟨hf, hstate, hv, henv⟩, hstack⟩,
          hc.newCells (hvs.adjust n)⟩
  | eachBody f s c n b env site =>
      exact eachRound_confined hframe.1 hframe.2.1 hframe.2.2.1 n b hframe.2.2.2 site hstack hc
  | returning => exact ⟨hvs, hstack, hc⟩
  | activation site caller => exact deliver_confined allWithin_nil hstack (hc.depth caller)
  | boundary caller => exact deliver_confined hvs hstack (hc.depth caller)
  | protect handler site caller =>
      exact deliver_confined (allWithin_cons.mpr ⟨trivial, hvs⟩) hstack (hc.depth caller)
  | handling caller =>
      exact deliver_confined (allWithin_cons.mpr ⟨trivial, hvs⟩) hstack (hc.depth caller)
  | coroutine t mode site resumer caller =>
      exact deliver_confined (handed_within hvs mode) hstack
        ((hc.setThread (t := .dead) trivial hframe).switch caller resumer)
  | closes c => exact closeValue_confined hframe (e := .done vs) hvs hstack hc
  | exits e caller =>
      cases e with
      | done vs => exact deliver_confined hframe hstack (hc.depth caller)
      | _ => exact ⟨hframe, hstack, hc.depth caller⟩

private theorem leave_confined {e : Exit} (he : e.Within w) {frame : Frame}
    (hframe : frame.Within w) (hstack : StackWithin w stack) (hs : Confined g w store) :
    (leave e frame stack store).Confined g w := by
  unfold leave
  split
  · exact deliver_confined he hstack (hs.depth _)
  · split
    · exact ⟨hframe, hstack, hs⟩
    · exact ⟨he, hstack, hs⟩
  · exact deliver_confined allWithin_nil hstack hs
  · exact deliver_confined allWithin_nil hstack hs
  · exact deliver_confined allWithin_nil hstack hs
  · exact deliver_confined allWithin_nil hstack hs
  · dsimp only
    split
    · exact deliver_confined (allWithin_cons.mpr ⟨trivial, .one he⟩) hstack (hs.depth _)
    · exact callBack_confined (hframe _ rfl) (.one he) none
        (stackWithin_cons.mpr ⟨trivial, hstack⟩) (hs.depth _)
  · exact deliver_confined (allWithin_cons.mpr ⟨trivial, .one trivial⟩) hstack (hs.depth _)
  · have hs' {d : Depth} {r : Option Nat} {t : Nat} (ht : t ≠ 0) :=
      (hs.setThread (t := .dead) trivial ht).switch d r
    dsimp only
    split
    · exact deliver_confined (allWithin_cons.mpr ⟨trivial, .one he⟩) hstack (hs' hframe)
    · exact ⟨trivial, hstack, hs' hframe⟩
    · exact ⟨he, hstack, hs' hframe⟩
  · exact closeValue_confined hframe he hstack hs
  · exact ⟨he, hstack, hs⟩

/-- A step of the machine. It gets the globals from an environment only if they are visible, and does
not assign to them. -/
theorem step_confined {c : Config} (h : c.Confined g w) (hlost : c.asksLostName → 0 ∈ w)
    (hassigns : ∀ v ∈ c.assignsTo, v.Changeable w) :
    ∃ w', w ⊆ w' ∧ (step c).Confined g w' c := by
  obtain ⟨control, stack, store⟩ := c
  obtain ⟨hcontrol, hstack, hs⟩ := h
  cases control with
  | eval e env => exact eval_confined e hcontrol hstack hs
  | exec rest block env => exact ⟨w, subset_rfl, exec_confined rest block hcontrol hstack hs⟩
  | apply f args site =>
      exact ⟨w, subset_rfl, apply_confined hcontrol.1 hcontrol.2 site hstack hs⟩
  | deliver vs =>
      refine ⟨w, subset_rfl, ?_⟩
      cases stack with
      | nil => exact ⟨hcontrol, rfl, hs⟩
      | cons f stack =>
          obtain ⟨hf, hrest⟩ := stackWithin_cons.mp hstack
          exact receive_confined hcontrol hf hrest hs hlost hassigns
  | exit e =>
      refine ⟨w, subset_rfl, ?_⟩
      cases stack with
      | nil =>
          cases e with
          | raise v => exact ⟨hcontrol, rfl, hs⟩
          | returns vs => exact ⟨hcontrol, rfl, hs⟩
          | done vs => exact ⟨hcontrol, rfl, hs⟩
          | breakLoop => exact ⟨allWithin_nil, rfl, hs⟩
          | goto l => exact ⟨allWithin_nil, rfl, hs⟩
      | cons f stack =>
          obtain ⟨hf, hrest⟩ := stackWithin_cons.mp hstack
          exact leave_confined hcontrol hf hrest hs

end Machine

end Pagewright.Script
