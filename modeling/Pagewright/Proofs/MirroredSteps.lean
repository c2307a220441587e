import Pagewright.Proofs.MirroredAnswers
import Pagewright.Script.Machine

/-! One step of the machine on a store, and on its mirror: both lead to mirrors again. -/
namespace Pagewright.Script

variable {π : Nat ↪ Nat}

structure Config.Mirrors (π : Nat ↪ Nat) (c c' : Config) : Prop where
  control : c'.control = c.control.moved π
  stack : c'.stack = c.stack.map (·.moved π)
  store : c.store.Mirrors π c'.store

inductive Next.Mirrors (π : Nat ↪ Nat) : Next → Next → Prop
  | more {c c' : Config} : c.Mirrors π c' → Mirrors π (.more c) (.more c')
  | library {s s' : Store} (f : Value) (args : List Value) (site : Option Site)
      (stack : List Frame) : s.Mirrors π s' →
      Mirrors π (.library f args site stack s)
        (.library (f.moved π) (args.map (·.moved π)) site (stack.map (·.moved π)) s')
  | finished {s s' : Store} (vs : List Value) : s.Mirrors π s' →
      Mirrors π (.finished vs s) (.finished (vs.map (·.moved π)) s')
  | failed {s s' : Store} (v : Value) : s.Mirrors π s' →
      Mirrors π (.failed v s) (.failed (v.moved π) s')

/-! ### Values and frames -/

namespace Machine

@[simp] theorem head_moved (vs : List Value) : head (vs.map (·.moved π)) = (head vs).moved π :=
  Value.headD_map_moved vs

@[simp] theorem adjust_moved (n : Nat) (vs : List Value) :
    adjust n (vs.map (·.moved π)) = (adjust n vs).map (·.moved π) := by
  induction n generalizing vs with
  | zero => rfl
  | succ n ih =>
    cases vs with
    | nil => exact congrArg (Value.nil :: ·) (ih [])
    | cons v vs => exact congrArg (v.moved π :: ·) (ih vs)

@[simp] private theorem callers_moved (stack : List Frame) :
    callers (stack.map (·.moved π)) = callers stack := by
  induction stack with
  | nil => rfl
  | cons f stack ih =>
    cases f with
    | activation site caller => exact congrArg (site :: ·) ih
    | protect handler site caller => exact congrArg (site :: ·) ih
    | coroutine t mode site resumer caller => rfl
    | _ => exact ih

@[simp] theorem siteAt_moved (level : Nat) (site : Option Site) (stack : List Frame) :
    siteAt level site (stack.map (·.moved π)) = siteAt level site stack := by
  unfold siteAt
  rw [callers_moved]

@[simp] theorem activation?_moved (stack : List Frame) :
    activation? (stack.map (·.moved π)) =
      (activation? stack).map fun p => (p.1, p.2.1, p.2.2.map (·.moved π)) := by
  induction stack with
  | nil => rfl
  | cons f stack ih =>
    cases f with
    | activation site caller => rfl
    | closes v => rfl
    | exits e caller => rfl
    | _ => exact ih

@[simp] theorem cut_moved (above stack : List Frame) :
    cut (above.map (·.moved π)) (stack.map (·.moved π)) =
      (cut above stack).map fun p => (p.1.map (·.moved π), p.2.1, p.2.2.1, p.2.2.2.1, p.2.2.2.2.1,
        p.2.2.2.2.2.map (·.moved π)) := by
  induction stack generalizing above with
  | nil => rfl
  | cons f stack ih =>
    cases f with
    | coroutine t mode site resumer caller => rfl
    | _ => exact ih (_ :: above)

@[simp] theorem handed_moved (mode : ResumeMode) (vs : List Value) :
    handed mode (vs.map (·.moved π)) = (handed mode vs).map (·.moved π) := by
  cases mode <;> rfl

@[simp] private theorem integerLimit_moved (limit : Value) (step : Int64) :
    integerLimit (limit.moved π) step = integerLimit limit step := by
  unfold integerLimit
  rw [Value.toNumber?_moved]

@[simp] theorem counter?_moved (start limit step : Value) :
    counter? (start.moved π) (limit.moved π) (step.moved π) = counter? start limit step := by
  unfold counter?
  simp only [Value.toNumber?_moved, integerLimit_moved]
  cases start with
  | integer a => cases step <;> rfl
  | _ => rfl

end Machine

/-! ### Steps -/

namespace Store.Mirrors

variable {s s' : Store} (m : s.Mirrors π s')
include m

theorem deliver (vs : List Value) (stack : List Frame) :
    (Machine.deliver vs stack s).Mirrors π
      (Machine.deliver (vs.map (·.moved π)) (stack.map (·.moved π)) s') :=
  ⟨rfl, rfl, m⟩

theorem fault (f : Fault) (site : Option Site) (stack : List Frame) :
    (Machine.fault f site stack s).Mirrors π (Machine.fault f site (stack.map (·.moved π)) s') :=
  ⟨rfl, rfl, m⟩

theorem evalAll (es : List Expr) (env : Env) (stack : List Frame) :
    (Machine.evalAll es env stack s).Mirrors π
      (Machine.evalAll es (env.moved π) (stack.map (·.moved π)) s') := by
  rcases es with _ | ⟨e, _ | ⟨e', es⟩⟩ <;> exact ⟨rfl, rfl, m⟩

theorem callBack (f : Value) (args : List Value) (site : Option Site) (stack : List Frame) :
    (Machine.callBack f args site stack s).Mirrors π
      (Machine.callBack (f.moved π) (args.map (·.moved π)) site (stack.map (·.moved π)) s') := by
  unfold Machine.callBack
  rw [m.depth]
  dsimp only
  split
  · exact m.fault _ site stack
  · exact ⟨rfl, rfl, m.withDepth _⟩

theorem answer {a a' : Answer} (ha : a' = a.moved π) (site : Site) (stack : List Frame) :
    (Machine.answer a site stack s).Mirrors π
      (Machine.answer a' site (stack.map (·.moved π)) s') := by
  subst ha
  cases a with
  | value v => exact m.deliver [v] stack
  | call f args => exact m.callBack f args (some site) (.first :: stack)
  | fault f => exact m.fault f (some site) stack

theorem verdict (a : Answer) (negated : Bool) (site : Site) (stack : List Frame) :
    (Machine.verdict a negated site stack s).Mirrors π
      (Machine.verdict (a.moved π) negated site (stack.map (·.moved π)) s') := by
  cases a with
  | value v =>
    refine ⟨?_, rfl, m⟩
    change Control.deliver [.boolean ((v.moved π).truthy != negated)] = _
    rw [v.truthy_moved]
    rfl
  | call f args => exact m.callBack f args (some site) (.verdict negated :: stack)
  | fault f => exact m.fault f (some site) stack

/-! Calls. -/

theorem enter (c : Closure) (args : List Value) (site : Option Site) (caller : Depth)
    (stack : List Frame) :
    (Machine.enter c args site caller stack s).Mirrors π
      (Machine.enter c (args.map (·.moved π)) site caller (stack.map (·.moved π)) s') := by
  obtain ⟨hslots, hheap⟩ := m.heap.newCells (Machine.adjust c.function.parameters args)
  unfold Machine.enter
  dsimp only
  rw [Machine.adjust_moved, hslots]
  refine ⟨?_, rfl, m.withHeap hheap⟩
  refine congrArg (fun extra => Control.exec c.function.body c.function.body ⟨_, extra, c.chunk⟩) ?_
  split
  · exact List.map_drop.symm
  · rfl

theorem tailApply (f : Value) (args : List Value) (site : Site) (stack : List Frame) :
    (Machine.tailApply f args site stack s).Mirrors π
      (Machine.tailApply (f.moved π) (args.map (·.moved π)) site (stack.map (·.moved π)) s') := by
  unfold Machine.tailApply
  rw [Machine.activation?_moved, m.heap.closures]
  cases f with
  | closure r =>
    cases Machine.activation? stack with
    | none => exact ⟨rfl, rfl, m⟩
    | some p => exact m.enter _ args p.1 p.2.1 p.2.2
  | _ => exact ⟨rfl, rfl, m⟩

theorem applyOrTail (tail : Bool) (f : Value) (args : List Value) (site : Site)
    (stack : List Frame) :
    (Machine.applyOrTail tail f args site stack s).Mirrors π
      (Machine.applyOrTail tail (f.moved π) (args.map (·.moved π)) site (stack.map (·.moved π))
        s') := by
  cases tail with
  | true => exact m.tailApply f args site stack
  | false => exact ⟨rfl, rfl, m⟩

theorem evalCall (e : Expr) (tail : Bool) (env : Env) (stack : List Frame) :
    (Machine.evalCall e tail env stack s).Mirrors π
      (Machine.evalCall e tail (env.moved π) (stack.map (·.moved π)) s') := by
  cases e <;> exact ⟨rfl, rfl, m⟩

/-! New tables. -/

theorem storeWaiting (c : Construction) (more : List Value) :
    (Machine.storeWaiting c more s).Mirrors π
      (Machine.storeWaiting (c.moved π) (more.map (·.moved π)) s') := by
  have hitems : (c.waiting.reverse ++ more).map (·.moved π) =
      (c.moved π).waiting.reverse ++ more.map (·.moved π) := by
    rw [List.map_append, List.map_reverse]
    rfl
  unfold Machine.storeWaiting
  rw [← hitems]
  exact m.withHeap (m.heap.storeItems c.table c.stored _)

theorem constructField (c : Construction) (f : Field) (rest : List Field) (env : Env) (site : Site)
    (stack : List Frame) :
    (Machine.constructField c f rest env site stack s).Mirrors π
      (Machine.constructField (c.moved π) f rest (env.moved π) site (stack.map (·.moved π)) s') := by
  unfold Machine.constructField
  split
  · refine ⟨rfl, ?_, m⟩
    dsimp only
    split <;> rfl
  · refine ⟨rfl, ?_, m⟩
    rw [List.map_cons, Frame.moved, Literal.value_moved]
  · exact ⟨rfl, rfl, m⟩

theorem construct (c : Construction) (fields : List Field) (env : Env) (site : Site)
    (stack : List Frame) :
    (Machine.construct c fields env site stack s).Mirrors π
      (Machine.construct (c.moved π) fields (env.moved π) site (stack.map (·.moved π)) s') := by
  have hlength : (c.moved π).waiting.length = c.waiting.length := List.length_map ..
  unfold Machine.construct
  split
  · exact (m.storeWaiting c []).deliver [.table c.table] stack
  · rename_i f rest
    dsimp only
    rw [hlength]
    split
    · exact m.constructField c f rest env site stack
    · exact (m.storeWaiting c []).constructField ⟨c.table, c.stored + c.waiting.length, []⟩ f rest env
        site stack

/-! Expressions and statements. -/

theorem eval (e : Expr) (env : Env) (stack : List Frame) :
    (Machine.eval e env stack s).Mirrors π
      (Machine.eval e (env.moved π) (stack.map (·.moved π)) s') := by
  unfold Machine.eval
  cases e with
  | constant l =>
    refine ⟨?_, rfl, m⟩
    exact congrArg (fun v => Control.deliver [v]) l.value_moved.symm
  | «variable» i =>
    refine ⟨?_, rfl, m⟩
    exact congrArg (fun v => Control.deliver [v]) (m.heap.cell _)
  | call f args line => exact m.evalCall _ false env stack
  | method o name args line => exact m.evalCall _ false env stack
  | function f =>
    have hplace := m.heap.newClosure_fst ⟨f, env.slots, env.chunk⟩
    refine ⟨?_, rfl, m.withHeap (m.heap.newClosure _)⟩
    exact congrArg (fun r => Control.deliver [.closure r]) hplace
  | table list others fields line =>
    let t := Table.withRoom (Machine.listPlaces list fields) others
    have hplace : (s'.heap.newTable t).1 = (s.heap.newTable t).1 := m.heap.newTable_fst t t
    have hmade := m.heap.newTable t
    rw [Table.withRoom_moved] at hmade
    have hconstruct := (m.withHeap hmade).construct ⟨(s.heap.newTable t).1, 0, []⟩ fields env
      (env.site line) stack
    dsimp only
    rw [hplace]
    exact hconstruct
  | _ => exact ⟨rfl, rfl, m⟩

theorem target (targets : List Expr) (places : List Place) (values : List Expr) (env : Env)
    (stack : List Frame) :
    (Machine.target places values env stack s targets).Mirrors π
      (Machine.target (places.map (·.moved π)) values (env.moved π) (stack.map (·.moved π)) s'
        targets) := by
  induction targets generalizing places with
  | nil => exact m.evalAll values env (.assigned places env.chunk :: stack)
  | cons e rest ih =>
    cases e with
    | «variable» i => exact ih (.cell (env.slots.getD i 0) :: places)
    | index o k line => exact ⟨rfl, rfl, m⟩
    | _ => exact ih places

omit m in
theorem assign (chunk : Bytes) (stack : List Frame) (todo : List (Place × Value)) {s s' : Store}
    (m : s.Mirrors π s') :
    (Machine.assign chunk stack s todo).Mirrors π
      (Machine.assign chunk (stack.map (·.moved π)) s'
        (todo.map (Prod.map (Place.moved π) (Value.moved π)))) := by
  induction todo generalizing s s' with
  | nil => exact m.deliver [] stack
  | cons p rest ih =>
    obtain ⟨place, v⟩ := p
    cases place with
    | cell r => exact ih (m.withHeap (m.heap.setCell r v))
    | field o k line =>
      have hstoring := m.storing longestChain o k v
      simp only [List.map_cons, Prod.map, Place.moved, Machine.assign]
      rw [hstoring]
      cases Script.storing s longestChain o k v with
      | field r k' => exact ih (m.withHeap (m.heap.setField r k' v))
      | call f args => exact m.callBack f args _ (.assigning rest chunk :: stack)
      | fault f => exact m.fault f _ stack

theorem exec (rest block : List Stmt) (env : Env) (stack : List Frame) :
    (Machine.exec rest block env stack s).Mirrors π
      (Machine.exec rest block (env.moved π) (stack.map (·.moved π)) s') := by
  cases rest with
  | nil => exact m.deliver [] stack
  | cons st rest =>
    unfold Machine.exec
    cases st with
    | locals n closes es line =>
      exact m.evalAll es env (.locals n closes rest block env (env.site line) :: stack)
    | localFunction f =>
      have hcell := m.heap.newCell_fst .nil .nil
      let c : Closure := ⟨f, (s.heap.newCell .nil).1 :: env.slots, env.chunk⟩
      have hclosure := (m.heap.newCell .nil).newClosure_fst c
      have hheap := ((m.heap.newCell .nil).newClosure c).setCell (s.heap.newCell .nil).1
        (.closure ((s.heap.newCell .nil).2.newClosure c).1)
      dsimp only
      rw [hcell]
      exact ⟨rfl, rfl, m.withHeap (hclosure ▸ hheap)⟩
    | assign targets es => exact m.target targets [] es env (.after rest block env :: stack)
    | countLoop start limit step b line =>
      exact m.evalAll _ env (.countRange b env (env.site line) :: .after rest block env :: stack)
    | eachLoop n es b line =>
      exact m.evalAll es env (.eachRange n b env (env.site line) :: .after rest block env :: stack)
    | returns es =>
      rcases es with _ | ⟨e, _ | ⟨e', es⟩⟩
      · exact m.evalAll [] env (.returning :: stack)
      · cases e with
        | call f args line => exact m.evalCall _ true env stack
        | method o name args line => exact m.evalCall _ true env stack
        | _ => exact ⟨rfl, rfl, m⟩
      · exact m.evalAll _ env (.returning :: stack)
    | _ => exact ⟨rfl, rfl, m⟩

/-! Loops and locals. -/

theorem countRound (c : Counter) (body : List Stmt) (env : Env) (stack : List Frame) :
    (Machine.countRound c body env stack s).Mirrors π
      (Machine.countRound c body (env.moved π) (stack.map (·.moved π)) s') := by
  have hround (v : Value) (hv : v.moved π = v) :
      Config.Mirrors π ⟨.exec body body { env with slots := (s.heap.newCell v).1 :: env.slots },
        .countBody c body env :: stack, { s with heap := (s.heap.newCell v).2 }⟩
      ⟨.exec body body { env.moved π with slots := (s'.heap.newCell v).1 :: env.slots },
        .countBody c body (env.moved π) :: stack.map (·.moved π),
        { s' with heap := (s'.heap.newCell v).2 }⟩ := by
    rw [m.heap.newCell_fst v]
    have hnew := m.heap.newCell v
    rw [hv] at hnew
    exact ⟨rfl, rfl, m.withHeap hnew⟩
  cases c with
  | integers now rounds step => exact hround (.integer now) rfl
  | floats now limit step => exact hround (.float now) rfl

theorem eachRound (iterator state control : Value) (names : Nat) (body : List Stmt) (env : Env)
    (site : Site) (stack : List Frame) :
    (Machine.eachRound iterator state control names body env site stack s).Mirrors π
      (Machine.eachRound (iterator.moved π) (state.moved π) (control.moved π) names body
        (env.moved π) site (stack.map (·.moved π)) s') :=
  m.callBack iterator [state, control] (some site)
    (.eachStep iterator state names body env site :: stack)

theorem closable (v : Value) : Machine.closable s' (v.moved π) = Machine.closable s v := by
  unfold Machine.closable
  rw [m.metamethod, Value.truthy_moved, Value.isNil_moved]

theorem bindLocals (n : Nat) (closes : Option Nat) (vs : List Value) (rest block : List Stmt)
    (env : Env) (site : Site) (stack : List Frame) :
    (Machine.bindLocals n closes vs rest block env site stack s).Mirrors π
      (Machine.bindLocals n closes (vs.map (·.moved π)) rest block (env.moved π) site
        (stack.map (·.moved π)) s') := by
  obtain ⟨hslots, hheap⟩ := m.heap.newCells (Machine.adjust n vs)
  have hclosed : (closes.bind fun i => ((Machine.adjust n vs).map (·.moved π))[i]?) =
      (closes.bind fun i => (Machine.adjust n vs)[i]?).map (·.moved π) := by
    cases closes with
    | none => rfl
    | some i => exact List.getElem?_map
  unfold Machine.bindLocals
  dsimp only
  rw [Machine.adjust_moved, hslots, hclosed]
  cases closes.bind fun i => (Machine.adjust n vs)[i]? with
  | none => exact ⟨rfl, rfl, m.withHeap hheap⟩
  | some v =>
    dsimp only [Option.map]
    rw [m.closable]
    split
    · exact ⟨rfl, rfl, m.withHeap hheap⟩
    · exact m.fault _ _ stack

/-! Coroutines. -/

theorem refuse (f : Fault) (mode : ResumeMode) (site : Option Site) (stack : List Frame) :
    (Machine.refuse f mode site stack s).Mirrors π
      (Machine.refuse f mode site (stack.map (·.moved π)) s') := by
  cases mode with
  | flagged => exact m.deliver [.boolean false, f.value none] stack
  | plain => exact m.fault f site stack

theorem resume (t : Nat) (args : List Value) (mode : ResumeMode) (site : Option Site)
    (stack : List Frame) :
    (Machine.resume t args mode site stack s).Mirrors π
      (Machine.resume t (args.map (·.moved π)) mode site (stack.map (·.moved π)) s') := by
  have hentered (scripts : Nat) := m.switch (m.heap.setThread t .running) (some t)
    ⟨scripts, s.depth.library + 1⟩
  unfold Machine.resume
  rw [m.depth, m.running, m.heap.thread]
  dsimp only
  split
  · exact m.refuse _ mode site stack
  · cases s.heap.threads.getD t .dead with
    | fresh f => exact ⟨rfl, rfl, hentered 0⟩
    | suspended frames scripts =>
      have hresumed := (hentered scripts).deliver args
        (frames ++ .coroutine t mode site s.running s.depth :: stack)
      rw [List.map_append] at hresumed
      exact hresumed
    | running => exact m.refuse _ mode site stack
    | dead => exact m.refuse _ mode site stack

theorem yield (vs : List Value) (site : Option Site) (stack : List Frame) :
    (Machine.yield vs site stack s).Mirrors π
      (Machine.yield (vs.map (·.moved π)) site (stack.map (·.moved π)) s') := by
  have hcut := Machine.cut_moved (π := π) [] stack
  rw [List.map_nil] at hcut
  unfold Machine.yield
  rw [hcut, m.running, m.depth]
  cases Machine.cut [] stack with
  | none => exact m.fault _ site stack
  | some p =>
    obtain ⟨above, t, mode, resumer, caller, rest⟩ := p
    have hthread := m.heap.setThread t (.suspended above.reverse s.depth.scripts)
    rw [Thread.moved, List.map_reverse] at hthread
    have hyielded := (m.switch hthread resumer caller).deliver (Machine.handed mode vs) rest
    rw [← Machine.handed_moved] at hyielded
    exact hyielded

/-! Applying. -/

theorem protect (handler : Option Value) (f : Value) (args : List Value) (site : Option Site)
    (stack : List Frame) :
    (Machine.protect handler f args site stack s).Mirrors π
      (Machine.protect (handler.map (·.moved π)) (f.moved π) (args.map (·.moved π)) site
        (stack.map (·.moved π)) s') := by
  unfold Machine.protect
  rw [m.depth]
  dsimp only
  split
  · exact m.fault _ none (.protect handler site s.depth :: stack)
  · exact ⟨rfl, rfl, m.withDepth _⟩

theorem raiseError (args : List Value) (site : Option Site) (stack : List Frame) :
    (Machine.raiseError args site stack s).Mirrors π
      (Machine.raiseError (args.map (·.moved π)) site (stack.map (·.moved π)) s') := by
  have hsecond : (args.map (·.moved π))[1]? = args[1]?.map (·.moved π) := List.getElem?_map
  unfold Machine.raiseError
  simp only [hsecond, Machine.head_moved, Machine.siteAt_moved]
  generalize Machine.head args = v
  cases args[1]? with
  | none => cases v <;> exact ⟨rfl, rfl, m⟩
  | some l =>
    cases l with
    | nil => cases v <;> exact ⟨rfl, rfl, m⟩
    | integer i => cases v <;> exact ⟨rfl, rfl, m⟩
    | float d =>
      simp only [Option.map_some, Value.moved_float]
      generalize (Value.float d).toNumber?.bind Value.toInteger? = level
      cases level with
      | none => exact m.fault _ site stack
      | some n => cases v <;> exact ⟨rfl, rfl, m⟩
    | string t =>
      simp only [Option.map_some, Value.moved_string]
      generalize (Value.string t).toNumber?.bind Value.toInteger? = level
      cases level with
      | none => exact m.fault _ site stack
      | some n => cases v <;> exact ⟨rfl, rfl, m⟩
    | _ => exact m.fault _ site stack

theorem apply (f : Value) (args : List Value) (site : Option Site) (stack : List Frame) :
    (Machine.apply f args site stack s).Mirrors π
      (Machine.apply (f.moved π) (args.map (·.moved π)) site (stack.map (·.moved π)) s') := by
  have hfault (f : Fault) : Next.Mirrors π (.more (Machine.fault f site stack s))
      (.more (Machine.fault f site (stack.map (·.moved π)) s')) := .more (m.fault f site stack)
  have hmeta := m.metamethod f Event.call
  unfold Machine.apply
  cases f with
  | closure r =>
    dsimp only [Value.moved_closure]
    rw [m.depth, m.heap.closures]
    split
    · exact hfault _
    · exact .more ((m.withDepth _).enter _ args site s.depth stack)
  | builtin b =>
    cases b with
    | control b =>
      cases b with
      | error => exact .more (m.raiseError args site stack)
      | pcall =>
        cases args with
        | nil => exact hfault _
        | cons f args => exact .more (m.protect none f args site stack)
      | resume =>
        cases args with
        | nil => exact hfault _
        | cons v args =>
          cases v with
          | thread t => exact .more (m.resume t args .flagged site stack)
          | _ => exact hfault _
      | xpcall =>
        rcases args with _ | ⟨f, _ | ⟨h, args⟩⟩
        · exact hfault _
        · exact hfault _
        · dsimp only [List.map, Value.moved_builtin]
          rw [h.isFunction_moved, h.typeName_moved]
          split
          · exact .more (m.protect (some h) f args site stack)
          · exact hfault _
      | yield => exact .more (m.yield args site stack)
    | _ => exact .library (.builtin _) args site stack m
  | generator r =>
    dsimp only [Value.moved_generator]
    rw [m.heap.generators]
    cases s.heap.generators.getD r default with
    | wrap t => exact .more (m.resume t args .plain site stack)
    | «matches» => exact .library (.generator r) args site stack m
  | hosted r => exact .library (.hosted r) args site stack m
  | _ =>
    simp only [Value.moved_nil, Value.moved_boolean, Value.moved_integer, Value.moved_float,
      Value.moved_string, Value.moved_table, Value.moved_thread, Value.moved_address] at hmeta ⊢
    rw [hmeta]
    cases s.metamethod _ Event.call with
    | nil => exact hfault _
    | _ => exact .more ⟨rfl, rfl, m⟩

/-! Frames. -/

theorem closeValue (c : Value) (e : Exit) (stack : List Frame) :
    (Machine.receive.closeValue c e stack s).Mirrors π
      (Machine.receive.closeValue (c.moved π) (e.moved π) (stack.map (·.moved π)) s') := by
  unfold Machine.receive.closeValue
  rw [m.metamethod, m.depth]
  cases s.metamethod c Event.close with
  | nil => cases e <;> exact ⟨rfl, rfl, m⟩
  | _ => cases e <;> exact m.callBack _ _ none (.exits _ s.depth :: stack)

theorem receive (vs : List Value) (frame : Frame) (stack : List Frame) :
    (Machine.receive vs frame stack s).Mirrors π
      (Machine.receive (vs.map (·.moved π)) (frame.moved π) (stack.map (·.moved π)) s') := by
  have hdelivered (vs : List Value) := m.deliver vs stack
  unfold Machine.receive
  simp only [Machine.head_moved, Value.getD_map_moved, Machine.adjust_moved, Machine.counter?_moved,
    Value.truthy_moved, Value.isNil_moved, m.closable]
  generalize hv : Machine.head vs = v
  cases frame with
  | items rest done env =>
    cases rest with
    | nil =>
      have hall := hdelivered (done.reverse ++ vs)
      rw [List.map_append, List.map_reverse] at hall
      exact hall
    | cons e rest => exact ⟨rfl, rfl, m⟩
  | callee args env line tail =>
    exact m.evalAll args env (.arguments v [] (env.site line) tail :: stack)
  | arguments f before site tail =>
    have hcall := m.applyOrTail tail f (before ++ vs) site stack
    rw [List.map_append] at hcall
    exact hcall
  | receiver name args env line tail =>
    exact m.answer (m.index longestChain v (.string name)) (env.site line)
      (.found v args env line tail :: stack)
  | found o args env line tail =>
    exact m.evalAll args env (.arguments v [o] (env.site line) tail :: stack)
  | unary op site =>
    exact m.answer (m.unary v op) site stack
  | right op l site =>
    cases op with
    | arith op =>
      exact m.answer (m.arith l v op) site stack
    | bits op =>
      exact m.answer (m.bitwise l v op) site stack
    | concat =>
      exact m.answer (m.concat l v) site stack
    | compare op =>
      have hcompared := m.compareValues l v op
      dsimp only [Frame.moved]
      rw [hcompared]
      exact m.verdict _ _ site stack
  | both r env =>
    dsimp only [Frame.moved]
    split
    · refine ⟨rfl, ?_, m⟩
      dsimp only
      split <;> rfl
    · exact hdelivered [v]
  | either r env =>
    dsimp only [Frame.moved]
    split
    · exact hdelivered [v]
    · refine ⟨rfl, ?_, m⟩
      dsimp only
      split <;> rfl
  | key o site =>
    exact m.answer (m.index longestChain o v) site stack
  | spread c => exact (m.storeWaiting c vs).deliver [.table c.table] stack
  | item c rest env site =>
    exact m.construct { c with waiting := v :: c.waiting } rest env site stack
  | fieldValue c k rest env site =>
    dsimp only [Frame.moved]
    rw [checkedKey_moved]
    cases checkedKey k with
    | ok k' => exact (m.withHeap (m.heap.setField c.table k' v)).construct c rest env site stack
    | error f => exact m.fault f _ stack
  | locals n closes rest block env site =>
    exact m.bindLocals n closes vs rest block env site stack
  | targetKey o line rest places values env =>
    exact m.target rest (.field o v line :: places) values env stack
  | assigned places chunk =>
    have hassign := m.assign chunk stack
      (places.zip (Machine.adjust places.length vs).reverse)
    rw [← List.zip_map, List.map_reverse] at hassign
    dsimp only [Frame.moved]
    rw [List.length_map]
    exact hassign
  | assigning rest chunk => exact m.assign chunk stack rest
  | branch yes no env =>
    dsimp only [Frame.moved]
    split <;> exact ⟨rfl, rfl, m⟩
  | whileTest c b env =>
    dsimp only [Frame.moved]
    split
    · exact ⟨rfl, rfl, m⟩
    · exact hdelivered []
  | exitTest =>
    dsimp only [Frame.moved]
    split
    · exact ⟨rfl, rfl, m⟩
    · exact hdelivered []
  | countRange b env site =>
    dsimp only [Frame.moved]
    split
    · exact m.countRound _ b env stack
    · exact hdelivered []
    · exact m.fault _ _ stack
  | countBody c b env =>
    dsimp only [Frame.moved]
    split
    · exact m.countRound _ b env stack
    · exact hdelivered []
  | eachRange n b env site =>
    dsimp only [Frame.moved]
    split
    · exact m.fault _ _ stack
    · split
      · exact m.eachRound v _ _ n b env site (.closes _ :: stack)
      · exact m.eachRound v _ _ n b env site stack
  | eachStep f st n b env site =>
    obtain ⟨hslots, hheap⟩ := m.heap.newCells (Machine.adjust n vs)
    dsimp only [Frame.moved]
    split
    · exact hdelivered []
    · rw [hslots]
      exact ⟨rfl, rfl, m.withHeap hheap⟩
  | eachBody f st c n b env site => exact m.eachRound f st c n b env site stack
  | activation site caller => exact (m.withDepth caller).deliver [] stack
  | boundary caller => exact (m.withDepth caller).deliver vs stack
  | protect handler site caller => exact (m.withDepth caller).deliver (.boolean true :: vs) stack
  | handling caller => exact (m.withDepth caller).deliver (.boolean false :: vs) stack
  | coroutine t mode site resumer caller =>
    have hended := (m.switch (m.heap.setThread t .dead) resumer caller).deliver
      (Machine.handed mode vs) stack
    rw [← Machine.handed_moved] at hended
    exact hended
  | closes c => exact m.closeValue c (.done vs) stack
  | exits e caller =>
    cases e with
    | done vs => exact (m.withDepth caller).deliver vs stack
    | _ => exact ⟨rfl, rfl, m.withDepth caller⟩
  | _ => exact ⟨rfl, rfl, m⟩

theorem leave (e : Exit) (frame : Frame) (stack : List Frame) :
    (Machine.leave e frame stack s).Mirrors π
      (Machine.leave (e.moved π) (frame.moved π) (stack.map (·.moved π)) s') := by
  unfold Machine.leave
  cases frame with
  | activation site caller =>
    cases e with
    | returns vs => exact (m.withDepth caller).deliver vs stack
    | _ => exact ⟨rfl, rfl, m⟩
  | after rest block env =>
    cases e with
    | goto l =>
      dsimp only [Frame.moved, Exit.moved]
      split <;> exact ⟨rfl, rfl, m⟩
    | _ => exact ⟨rfl, rfl, m⟩
  | protect handler site caller =>
    cases e with
    | raise v =>
      cases handler with
      | none => exact (m.withDepth caller).deliver [.boolean false, v] stack
      | some h => exact (m.withDepth caller).callBack h [v] none (.handling caller :: stack)
    | _ => exact ⟨rfl, rfl, m⟩
  | handling caller =>
    cases e with
    | raise v =>
      exact (m.withDepth caller).deliver [.boolean false, Fault.errorInHandler.value none] stack
    | _ => exact ⟨rfl, rfl, m⟩
  | coroutine t mode site resumer caller =>
    cases e with
    | raise v =>
      have hended := m.switch (m.heap.setThread t .dead) resumer caller
      cases mode with
      | flagged => exact hended.deliver [.boolean false, v] stack
      | plain => cases v <;> exact ⟨rfl, rfl, hended⟩
    | _ => exact ⟨rfl, rfl, m⟩
  | closes c => exact m.closeValue c e stack
  | whileBody c b env => cases e <;> exact ⟨rfl, rfl, m⟩
  | untilBody b env => cases e <;> exact ⟨rfl, rfl, m⟩
  | countBody c b env => cases e <;> exact ⟨rfl, rfl, m⟩
  | eachBody f st c n b env site => cases e <;> exact ⟨rfl, rfl, m⟩
  | _ => exact ⟨rfl, rfl, m⟩

end Store.Mirrors

/-- A step of the machine does to a mirror what it does to what is mirrored. -/
theorem Config.Mirrors.step {c c' : Config} (h : c.Mirrors π c') :
    (Machine.step c).Mirrors π (Machine.step c') := by
  obtain ⟨control, stack, s⟩ := c
  obtain ⟨control', stack', s'⟩ := c'
  obtain ⟨rfl, rfl, m⟩ := h
  cases control with
  | eval e env => exact .more (m.eval e env stack)
  | exec rest block env => exact .more (m.exec rest block env stack)
  | apply f args site => exact m.apply f args site stack
  | deliver vs =>
    cases stack with
    | nil => exact .finished vs m
    | cons f stack => exact .more (m.receive vs f stack)
  | exit e =>
    cases stack with
    | nil =>
      cases e with
      | raise v => exact .failed v m
      | returns vs => exact .finished vs m
      | done vs => exact .finished vs m
      | breakLoop => exact .finished [] m
      | goto l => exact .finished [] m
    | cons f stack => exact .more (m.leave e f stack)

end Pagewright.Script
