import Pagewright.Proofs.MirroredLists
import Pagewright.Proofs.MirroredTexts

/-!
Calls of the library on a store and on its mirror. The pairs of the globals come in an order of their
own, so `next` is told apart from the rest: it does the same on every other table.
-/
namespace Pagewright.Script

variable {π : Nat ↪ Nat} {s s' : Store}

theorem Store.Mirrors.statusOf (hs : s.Mirrors π s') (t : Nat) :
    Library.statusOf s' t = Library.statusOf s t := by
  unfold Library.statusOf
  rw [hs.heap.thread, hs.running]
  cases s.heap.threads.getD t .dead <;> rfl

/-! ### Sources -/

namespace Chunk

theorem load_mirrored (source name : Bytes) (env : Value) :
    Mirrored π (Except.map (·.moved π)) (load source name env)
      (load source name (env.moved π)) := by
  refine .get_bind fun s s' hs => ?_
  rw [hs.depth]
  split
  · exact .pure rfl
  · refine Mirrored.bind (m := fun r => r)
      (.onHeap fun _ _ _ hh => ⟨hh.newCell_fst _ _, hh.newCell env⟩) fun cell => ?_
    exact Mirrored.bind (m := fun r => r)
      (.onHeap fun _ _ _ hh => ⟨hh.newClosure_fst _, hh.newClosure _⟩) fun r => .pure rfl

theorem loadValue_mirrored (source name : Bytes) (env : Value) :
    Mirrored π (Except.map (·.moved π)) (loadValue source name env)
      (loadValue source name (env.moved π)) := by
  refine .ite (load_mirrored _ _ _) ((load_mirrored _ _ _).bind fun f => ?_)
  cases f with
  | ok f => exact .pure rfl
  | error e => exact load_mirrored _ _ _

theorem newEnvironment_mirrored : Mirrored π (·.moved π) newEnvironment newEnvironment := by
  refine .get_bind fun s s' hs => ?_
  rw [hs.globals]
  refine Mirrored.bind (m := fun r => r) (.onHeap fun g h h' hh => ?_) fun r => .pure rfl
  -- the two tables of an environment hold no tag
  have hroom : (Table.withRoom 0 1).moved π = Table.withRoom 0 1 := Table.withRoom_moved 0 1
  have hmeta : ((Table.withRoom 0 1).set (.string Event.index) (.table s.globals)).moved π =
      (Table.withRoom 0 1).set (.string Event.index) (.table s.globals) := by
    rw [← Table.set_moved, hroom]
    rfl
  have hfirst := hh.newTable (Table.withRoom 0 1)
  rw [hroom] at hfirst
  have hsecond := hfirst.newTable ((Table.withRoom 0 1).set (.string Event.index) (.table s.globals))
  rw [hmeta] at hsecond
  have hplace : h'.tables.size = h.tables.size := hh.size
  unfold Heap.newEnvironment
  dsimp only [Heap.newTable] at hsecond ⊢
  simp only [Array.size_push, hplace]
  exact ⟨trivial, (hsecond.setMetatable h.tables.size (some (h.tables.size + 1))).setField
    h.tables.size (Value.ofText "_G") (.table h.tables.size)⟩

end Chunk

namespace Library

variable {call call' : Callback} (hcall : CallsMirrored π call call')

/-! ### Functions that are globals -/

private theorem tonumber_mirrored (args : List Value) :
    Mirrored π (List.map (·.moved π)) (tonumber args) (tonumber (args.map (·.moved π))) := by
  have hread {n? : Option Value} (h : ∀ n, n? = some n → n.moved π = n) :
      [n?.getD .nil].map (·.moved π) = [n?.getD .nil] := by
    cases n? with
    | none => rfl
    | some n => exact congrArg ([·]) (h n rfl)
  unfold tonumber
  dsimp only
  rw [optArg_moved, arg?_moved, given_moved]
  cases optArg args 1 with
  | nil =>
    refine (anyArg_mirrored _ args 0).bind fun v => ?_
    cases v with
    | string b =>
      exact .pure (hread fun n hn => Value.moved_of_toNumber? (v := .string b) hn).symm
    | _ => exact .pure rfl
  | _ =>
    -- digits of a base, which is another argument
    refine (integerArg_agreed _ args 1).bind fun base => ?_
    cases arg? args 0 with
    | none => exact bad_mirrored _ 0 _
    | some v =>
      cases v with
      | string b =>
        refine .ite (bad_mirrored _ 1 _) (.pure (hread fun n hn => ?_).symm)
        obtain ⟨i, -, rfl⟩ := Option.map_eq_some_iff.mp hn
        rfl
      | _ => exact bad_mirrored _ 0 _

private theorem select_mirrored (args : List Value) :
    Mirrored π (List.map (·.moved π)) (select args) (select (args.map (·.moved π))) := by
  have hrest : (args.map (·.moved π)).drop 1 = (args.drop 1).map (·.moved π) := List.map_drop.symm
  have hchosen : Mirrored π (List.map (Value.moved π ·))
      (integerArg (.basic .select) args 0 >>= fun n =>
        if 0 < n then return (args.drop 1).drop (n.toNat - 1)
        else if n < 0 && -n ≤ (args.drop 1).length then
          return (args.drop 1).drop ((args.drop 1).length + n).toNat
        else bad (.basic .select) 0 "index out of range")
      (integerArg (.basic .select) (args.map (·.moved π)) 0 >>= fun n =>
        if 0 < n then return ((args.drop 1).map (Value.moved π ·)).drop (n.toNat - 1)
        else if n < 0 && -n ≤ (args.drop 1).length then
          return ((args.drop 1).map (Value.moved π ·)).drop ((args.drop 1).length + n).toNat
        else bad (.basic .select) 0 "index out of range") := by
    refine (integerArg_agreed _ args 0).bind fun n => ?_
    exact .ite (.pure List.map_drop.symm) (.ite (.pure List.map_drop.symm) (bad_mirrored _ 0 _))
  unfold select
  dsimp only
  rw [hrest, List.length_map, optArg_moved]
  cases optArg args 0 with
  | string b =>
    dsimp only [Value.moved_string]
    split
    · exact .pure rfl
    · exact hchosen
  | _ => exact hchosen

section Callbacks

include hcall

private theorem pieces_agreed (f : Value) (fuel : Nat) (out : Bytes) :
    Agreed π (pieces call f fuel out) (pieces call' (f.moved π) fuel out) := by
  induction fuel generalizing out with
  | zero => exact .pure rfl
  | succ fuel ih =>
    refine (hcall f []).bind fun vs => ?_
    rw [Value.headD_map_moved]
    cases vs.headD .nil with
    | nil => exact .pure rfl
    | string b =>
      cases b with
      | nil => exact .pure rfl
      | cons c b => exact ih _
    | _ => exact .pure rfl

omit hcall in
theorem loaded_mirrored (mode source name : Bytes) (env : Value) :
    let loaded (env : Value) : Eval (List Value) := do
      if isBinary source then
        return [.nil, .string (Bytes.ofText "attempt to load a binary chunk")]
      else if !mode.contains 116 then
        return [.nil, .string (Bytes.ofText "attempt to load a text chunk")]
      else match ← Chunk.load source name env with
        | .ok g => return [g]
        | .error m => return [.nil, .string m]
    Mirrored π (List.map (·.moved π)) (loaded env) (loaded (env.moved π)) := by
  refine .ite (.pure rfl) (.ite (.pure rfl) ((Chunk.load_mirrored _ _ env).bind fun f => ?_))
  cases f <;> exact .pure rfl

theorem load_mirrored (args : List Value) :
    Mirrored π (List.map (·.moved π)) (load call args) (load call' (args.map (·.moved π))) := by
  refine (bytesOr_agreed _ args 2 _).bind fun mode => .get_bind fun s s' hs => ?_
  have henv : ((arg? (args.map (·.moved π)) 3).getD (.table s'.globals)) =
      ((arg? args 3).getD (.table s.globals)).moved π := by
    rw [arg?_moved, hs.globals]
    cases arg? args 3 <;> rfl
  dsimp only
  rw [henv, optArg_moved]
  generalize (arg? args 3).getD (.table s.globals) = env
  cases optArg args 0 with
  | string b =>
    refine (bytesOr_agreed _ args 1 b).bind fun name => ?_
    simp only [pure_bind]
    exact loaded_mirrored mode b name env
  | _ =>
    refine (functionArg_mirrored (.basic .load) [_] 0).bind fun g =>
      (bytesOr_agreed _ args 1 _).bind fun name => (pieces_agreed hcall g _ _).bind fun text => ?_
    cases text with
    | error e => exact .pure rfl
    | ok b =>
      simp only [pure_bind]
      exact loaded_mirrored mode b name env

def putMetatable (r : Nat) (m : Option Nat) : Eval (List Value) := do
  match (← get).metamethod (.table r) Event.metatable with
  | .nil =>
    Eval.onHeap fun h => ((), h.setMetatable r m)
    return [.table r]
  | _ => Eval.fault .protectedMetatable

omit hcall in
private theorem putMetatable_mirrored (r : Nat) (m : Option Nat) :
    Mirrored π (List.map (·.moved π)) (putMetatable r m) (putMetatable r m) := by
  refine .get_bind fun s s' hs => ?_
  have hmeta := hs.metamethod (.table r) Event.metatable
  rw [Value.moved_table] at hmeta
  rw [hmeta]
  cases s.metamethod (.table r) Event.metatable with
  | nil =>
    exact Mirrored.bind (m := id) (.onHeap fun _ _ _ hh => ⟨rfl, hh.setMetatable r m⟩)
      fun _ => .pure rfl
  | _ => exact .fault _

omit hcall in
private theorem setmetatable_mirrored (args : List Value) :
    Mirrored π (List.map (·.moved π)) (setmetatable args)
      (setmetatable (args.map (·.moved π))) := by
  refine (tableArg_agreed _ args 0).bind fun r => ?_
  have hrest := putMetatable_mirrored (π := π) r
  dsimp only
  rw [arg?_moved]
  have hbad := bad_mirrored (π := π) (m := fun m : Option Nat => m) (.basic .setmetatable) 1
    "nil or table expected"
  cases arg? args 1 with
  | none => exact hbad.bind hrest
  | some v =>
    cases v with
    | nil =>
      simp only [Option.map_some, Value.moved_nil, pure_bind]
      exact hrest none
    | table m =>
      simp only [Option.map_some, Value.moved_table, pure_bind]
      exact hrest (some m)
    | _ => exact hbad.bind hrest

def shownMetatable (h : Heap) (m : Nat) : Eval (List Value) :=
  match (h.table m).get (.string Event.metatable) with
  | .nil => return [.table m]
  | p => return [p]

omit hcall in
private theorem shownMetatable_mirrored {globals : Nat} {h h' : Heap} (hh : h.Mirrors π globals h')
    (m : Nat) :
    Mirrored π (List.map (·.moved π)) (shownMetatable h m) (shownMetatable h' m) := by
  have hprotected := hh.get m (.string Event.metatable)
  rw [Value.moved_string] at hprotected
  unfold shownMetatable
  rw [hprotected]
  cases (h.table m).get (.string Event.metatable) <;> exact .pure rfl

private theorem basic_mirrored {f : BasicFunction} (hf : f ≠ .next) (args : List Value) :
    Mirrored π (List.map (·.moved π)) (basic call f args)
      (basic call' f (args.map (·.moved π))) := by
  cases f with
  | next => exact absurd rfl hf
  | assert =>
    refine (anyArg_mirrored _ args 0).bind fun v => ?_
    rw [v.truthy_moved]
    refine .ite (.pure rfl) ?_
    have hraised : (args.map (·.moved π)).getD 1 (Value.ofText "assertion failed!") =
        (args.getD 1 (Value.ofText "assertion failed!")).moved π := by
      rw [List.getD_eq_getElem?_getD, List.getD_eq_getElem?_getD, List.getElem?_map]
      cases args[1]? <;> rfl
    rw [hraised]
    exact .raise _
  | collectgarbage => exact .pure rfl
  | getmetatable =>
    refine (anyArg_mirrored _ args 0).bind fun v => .get_bind fun s s' hs => ?_
    have hshown := hs.metatable? v
    cases v with
    | hosted r => exact .pure rfl
    | _ =>
      rw [hshown]
      cases s.metatable? _ with
      | none => exact .pure rfl
      | some m => exact shownMetatable_mirrored hs.heap m
  | ipairs => exact (anyArg_mirrored _ args 0).bind fun v => .pure rfl
  | ipairsStep =>
    refine (integerArg_agreed _ args 1).bind fun i => ?_
    rw [optArg_moved]
    refine (getField_mirrored hcall _ (ofInt (i + 1))).bind fun v => ?_
    cases v <;> exact .pure rfl
  | load => exact load_mirrored hcall args
  | pairs =>
    refine (anyArg_mirrored _ args 0).bind fun v => .get_bind fun s s' hs => ?_
    rw [hs.metamethod]
    cases s.metamethod v Event.pairs with
    | nil => exact .pure rfl
    | _ =>
      refine (hcall _ [v]).bind fun vs => .pure ?_
      simp only [optArg_moved]
      rfl
  | print => exact .pure rfl
  | rawequal =>
    refine (anyArg_mirrored _ args 0).bind fun x => (anyArg_mirrored _ args 1).bind fun y => ?_
    rw [Value.rawEqual_moved]
    exact .pure rfl
  | rawget =>
    refine (tableArg_agreed _ args 0).bind fun r => (anyArg_mirrored _ args 1).bind fun k => ?_
    refine .get_bind fun s s' hs => .pure ?_
    rw [k.normalKey_moved, hs.heap.get]
    rfl
  | rawlen =>
    unfold basic
    dsimp only
    rw [arg?_moved]
    cases arg? args 0 with
    | none => exact bad_mirrored _ 0 _
    | some v =>
      cases v with
      | table r =>
        refine .get_bind fun s s' hs => .pure ?_
        rw [hs.heap.border]
        rfl
      | string b => exact .pure rfl
      | _ => exact bad_mirrored _ 0 _
  | rawset =>
    refine (tableArg_agreed _ args 0).bind fun r => (anyArg_mirrored _ args 1).bind fun k => ?_
    refine (anyArg_mirrored _ args 2).bind fun v => ?_
    rw [checkedKey_moved]
    exact (lift_map_mirrored (checkedKey k)).bind fun k => (setField_agreed r k v).bind fun _ =>
      .pure rfl
  | select => exact select_mirrored args
  | setmetatable => exact setmetatable_mirrored args
  | tonumber => exact tonumber_mirrored args
  | tostring =>
    exact (anyArg_mirrored _ args 0).bind fun v => (textOf_agreed hcall v).bind fun t => .pure rfl
  | type =>
    refine (anyArg_mirrored _ args 0).bind fun v => .pure ?_
    rw [v.typeName_moved]
    rfl

/-! ### Coroutines -/

omit hcall in
theorem threadArg_agreed (f : Builtin) (args : List Value) (i : Nat) :
    Agreed π (threadArg f args i) (threadArg f (args.map (·.moved π)) i) := by
  unfold threadArg
  rw [arg?_moved, given_moved]
  cases arg? args i with
  | none => exact bad_mirrored f i _
  | some v =>
    cases v with
    | thread t => exact .pure rfl
    | _ => exact bad_mirrored f i _

omit hcall in
@[simp] private theorem toClose_moved (frames : List Frame) :
    toClose (frames.map (·.moved π)) = (toClose frames).map (·.moved π) := by
  unfold toClose
  rw [List.filterMap_map, List.map_filterMap]
  refine List.filterMap_congr fun f _ => ?_
  cases f <;> rfl

private theorem closeValue_agreed (v : Value) :
    Agreed π (closeValue call v) (closeValue call' (v.moved π)) := by
  refine .get_bind fun s s' hs => ?_
  rw [hs.metamethod]
  cases s.metamethod v Event.close with
  | nil => exact .pure rfl
  | _ => exact (hcall _ [v, .nil]).discard

private theorem closeThread_mirrored (t : Nat) :
    Mirrored π (List.map (·.moved π)) (closeThread call t) (closeThread call' t) := by
  refine .get_bind fun s s' hs => ?_
  rw [hs.heap.thread, hs.statusOf]
  have hended (vs : List Value) : Mirrored π (List.map (Value.moved π ·))
      (do
        Eval.onHeap fun h => ((), h.setThread t .dead)
        for v in vs do closeValue call v
        return [.boolean true])
      (do
        Eval.onHeap fun h => ((), h.setThread t .dead)
        for v in vs.map (Value.moved π ·) do closeValue call' v
        return [.boolean true]) :=
    Mirrored.bind (m := id) (.onHeap fun _ _ _ hh => ⟨rfl, hh.setThread t .dead⟩) fun _ =>
      (Mirrored.forIn rfl fun v => closeValue_agreed hcall v).bind fun _ => .pure rfl
  cases s.heap.threads.getD t .dead with
  | running => exact .fault _
  | suspended frames n =>
    dsimp only [Thread.moved]
    rw [toClose_moved]
    exact hended (toClose frames)
  | _ => exact hended []

private theorem coroutine_mirrored (f : CoroutineFunction) (args : List Value) :
    Mirrored π (List.map (·.moved π)) (coroutine call f args)
      (coroutine call' f (args.map (·.moved π))) := by
  have hstart : Agreed π
      (functionArg (.coroutine f) args 0 >>= fun f => Eval.onHeap (·.newThread (.fresh f)))
      (functionArg (.coroutine f) (args.map (·.moved π)) 0 >>= fun f =>
        Eval.onHeap (·.newThread (.fresh f))) :=
    (functionArg_mirrored _ args 0).bind fun v => .onHeap fun _ _ _ hh =>
      ⟨hh.newThread_fst _ _, hh.newThread (.fresh v)⟩
  cases f with
  | close => exact (threadArg_agreed _ args 0).bind fun t => closeThread_mirrored hcall t
  | create => exact hstart.bind fun t => .pure rfl
  | isyieldable => exact .get_bind fun s s' hs => .pure (by rw [hs.running]; rfl)
  | running => exact .get_bind fun s s' hs => .pure (by rw [hs.running]; rfl)
  | status =>
    refine .get_bind fun s s' hs => (threadArg_agreed _ args 0).bind fun t => .pure ?_
    rw [hs.statusOf]
    rfl
  | wrap =>
    exact hstart.bind fun t => Mirrored.bind (m := fun r => r)
      (.onHeap fun _ _ _ hh => ⟨hh.newGenerator_fst _, hh.newGenerator _⟩) fun r => .pure rfl

/-! ### Numbers -/

theorem extreme_mirrored (f : MathFunction) (args : List Value) :
    Mirrored π (List.map (·.moved π)) (extreme call f args)
      (extreme call' f (args.map (·.moved π))) := by
  refine (numberArg_mirrored _ args 0).discard.bind fun _ => ?_
  rw [List.length_map, optArg_moved]
  refine (Mirrored.foldlM (fun i best => ?_) _).bind fun best => .pure rfl
  refine (numberArg_mirrored _ args i).discard.bind fun _ => .get_bind fun s s' hs => ?_
  rw [optArg_moved, hs.below, hs.below, ← apply_ite (Answer.moved π)]
  refine (settle_mirrored hcall _).bind fun beyond => .pure ?_
  rw [beyond.truthy_moved]
  exact (apply_ite (Value.moved π) ..).symm

omit hcall in
theorem rounded_mirrored (f : MathFunction) (round : Double → Double) (args : List Value) :
    Mirrored π (List.map (·.moved π)) (rounded f round args)
      (rounded f round (args.map (·.moved π))) := by
  refine (numberArg_mirrored _ args 0).bind fun n => ?_
  cases n with
  | float d =>
    refine .pure ?_
    unfold asInteger
    cases Value.intOfDouble? (round d) <;> rfl
  | _ => exact .pure rfl

private theorem math_mirrored (f : MathFunction) (args : List Value) :
    Mirrored π (List.map (·.moved π)) (math call f args)
      (math call' f (args.map (·.moved π))) := by
  cases f with
  | abs =>
    refine (numberArg_mirrored _ args 0).bind fun n => ?_
    cases n <;> exact .pure rfl
  | ceil => exact rounded_mirrored _ _ args
  | floor => exact rounded_mirrored _ _ args
  | exp => exact (floatArg_agreed _ args 0).bind fun _ => .pure rfl
  | sqrt => exact (floatArg_agreed _ args 0).bind fun _ => .pure rfl
  | fmod =>
    refine (numberArg_mirrored _ args 0).bind fun x => (numberArg_mirrored _ args 1).bind fun y => ?_
    have hfloats {f : Double → Double → Value} (hf : ∀ a b, (f a b).moved π = f a b) :=
      (floatArg_agreed (π := π) (.math .fmod) args 0).bind fun a =>
        (floatArg_agreed (.math .fmod) args 1).bind (n := List.map (·.moved π)) fun b =>
          .pure (a := [f a b]) (congrArg ([·]) (hf a b).symm)
    cases x with
    | integer i =>
      cases y with
      | integer j => exact .ite (bad_mirrored _ 1 _) (.pure rfl)
      | _ => exact hfloats fun _ _ => rfl
    | _ => exact hfloats fun _ _ => rfl
  | log =>
    refine (floatArg_agreed _ args 0).bind fun x => ?_
    rw [optArg_moved]
    cases optArg args 1 with
    | nil => exact .pure rfl
    | _ => exact (floatArg_agreed _ args 1).bind fun _ => .pure rfl
  | max => exact extreme_mirrored hcall _ args
  | min => exact extreme_mirrored hcall _ args
  | modf =>
    unfold math modf
    dsimp only
    rw [optArg_moved]
    cases optArg args 0 with
    | integer i => exact .pure rfl
    | _ => exact (floatArg_agreed _ args 0).bind fun _ => .pure rfl
  | tointeger =>
    refine (anyArg_mirrored _ args 0).bind fun v => ?_
    rw [v.toNumber?_moved]
    split <;> exact .pure rfl
  | type =>
    refine (anyArg_mirrored _ args 0).bind fun v => .pure ?_
    cases v <;> rfl
  | ult =>
    exact (integerArg_agreed _ args 0).bind fun _ => (integerArg_agreed _ args 1).bind fun _ =>
      .pure rfl

theorem call_mirrored {f : Builtin} (hf : f ≠ .basic .next) (args : List Value) :
    Mirrored π (List.map (·.moved π)) (Library.call call f args)
      (Library.call call' f (args.map (·.moved π))) := by
  cases f with
  | control f => exact .fault _
  | basic f => exact basic_mirrored hcall (fun h => hf (congrArg Builtin.basic h)) args
  | string f => exact string_mirrored hcall f args
  | table f => exact table_mirrored hcall f args
  | math f => exact math_mirrored hcall f args
  | coroutine f => exact coroutine_mirrored hcall f args
  | utf8 f => exact utf8_mirrored f args

def pairValues : Option (Option (Value × Value)) → Eval (List Value)
  | none => Eval.fault .invalidKey
  | some none => return [.nil]
  | some (some (k, v)) => return [k, v]

omit hcall in
private theorem pairValues_mirrored (pair : Option (Option (Value × Value))) :
    Mirrored π (List.map (·.moved π)) (pairValues pair)
      (pairValues (pair.map (Option.map (movedEntry π)))) := by
  rcases pair with - | - | ⟨k, v⟩
  · exact .fault _
  · exact .pure rfl
  · exact .pure rfl

omit hcall in
theorem next_mirrored (call call' : Callback) (hs : s.Mirrors π s') {args : List Value}
    (hlisted : args.head? ≠ some (.table s.globals)) :
    MirrorEnds π (List.map (·.moved π)) (Library.call call (.basic .next) args s)
      (Library.call call' (.basic .next) (args.map (·.moved π)) s') := by
  have hbad := bad_mirrored (π := π) (m := List.map (·.moved π)) (α := List Value) (.basic .next) 0
  cases args with
  | nil => exact hbad _ s s' hs
  | cons v rest =>
    cases v with
    | table r =>
      have hr : r ≠ s.globals := fun h => hlisted (congrArg (fun r => some (Value.table r)) h)
      have hnext : (s'.heap.table r).next? ((rest.map (Value.moved π)).headD .nil).normalKey =
          ((s.heap.table r).next? (rest.headD .nil).normalKey).map
            (Option.map (movedEntry π)) := by
        rw [hs.heap.ordered r hr, Value.headD_map_moved, Value.normalKey_moved, Table.next?_moved]
      have hends := pairValues_mirrored ((s.heap.table r).next? (rest.headD .nil).normalKey) s s' hs
      rw [← hnext] at hends
      cases rest <;> exact hends
    | _ => exact hbad _ s s' hs

end Callbacks

end Library

end Pagewright.Script
