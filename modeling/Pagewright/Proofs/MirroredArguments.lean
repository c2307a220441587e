import Pagewright.Proofs.Agreement
import Pagewright.Proofs.MirroredAnswers
import Pagewright.Script.Library

/-!
Two computations, one on a store and one on its mirror. The first may give up; until it does, what they
come to is the same with the tags at other places. So it is for the arguments of library functions.
-/
namespace Pagewright.Script

variable {α β γ δ : Type} {π : Nat ↪ Nat} {m : α → β} {n : γ → δ}

/-- How a computation ends, and how one on the mirror does. -/
inductive MirrorEnds (π : Nat ↪ Nat) (m : α → β) :
    EStateM.Result Stop Store α → EStateM.Result Stop Store β → Prop
  | ok {s s' : Store} (a : α) : s.Mirrors π s' → MirrorEnds π m (.ok a s) (.ok (m a) s')
  | raised {s s' : Store} (v : Value) : s.Mirrors π s' →
      MirrorEnds π m (.error (.raised v) s) (.error (.raised (v.moved π)) s')
  | fault {s s' : Store} (f : Fault) : s.Mirrors π s' →
      MirrorEnds π m (.error (.fault f) s) (.error (.fault f) s')
  | exhausted (s : Store) (r : EStateM.Result Stop Store β) :
      MirrorEnds π m (.error .exhausted s) r

/-- On a mirror the second computation does what the first one does. -/
def Mirrored (π : Nat ↪ Nat) (m : α → β) (e : Eval α) (e' : Eval β) : Prop :=
  ∀ s s', s.Mirrors π s' → MirrorEnds π m (e s) (e' s')

abbrev Agreed (π : Nat ↪ Nat) (e e' : Eval α) : Prop := Mirrored π (fun a => a) e e'

/-! ### One step after another -/

theorem MirrorEnds.bind {e : Eval α} {e' : Eval β} {f : α → Eval γ} {f' : β → Eval δ} {s s' : Store}
    (he : MirrorEnds π m (e s) (e' s')) (hf : ∀ a, Mirrored π n (f a) (f' (m a))) :
    MirrorEnds π n ((e >>= f) s) ((e' >>= f') s') := by
  rw [eval_bind, eval_bind]
  generalize e s = r at he ⊢
  generalize e' s' = r' at he ⊢
  cases he with
  | ok a hs => exact hf a _ _ hs
  | raised v hs => exact .raised v hs
  | fault f hs => exact .fault f hs
  | exhausted => exact .exhausted _ _

namespace Mirrored

theorem bind {e : Eval α} {e' : Eval β} {f : α → Eval γ} {f' : β → Eval δ}
    (he : Mirrored π m e e') (hf : ∀ a, Mirrored π n (f a) (f' (m a))) :
    Mirrored π n (e >>= f) (e' >>= f') :=
  fun s s' hs => (he s s' hs).bind hf

theorem get_bind {f f' : Store → Eval α} {m : α → α}
    (h : ∀ s s', s.Mirrors π s' → Mirrored π m (f s) (f' s')) :
    Mirrored π m (get >>= f) (get >>= f') :=
  fun s s' hs => h s s' hs s s' hs

theorem pure {a : α} {b : β} (h : b = m a) :
    Mirrored π m (Pure.pure a : Eval α) (Pure.pure b : Eval β) := by
  subst h
  exact fun _ _ hs => .ok a hs

theorem fault (f : Fault) : Mirrored π m (Eval.fault f) (Eval.fault f) := fun _ _ hs => .fault f hs

theorem raise (v : Value) : Mirrored π m (Eval.raise v) (Eval.raise (v.moved π)) :=
  fun _ _ hs => .raised v hs

theorem ite {e₁ e₂ : Eval α} {e₁' e₂' : Eval β} {c : Prop} [Decidable c]
    (h₁ : Mirrored π m e₁ e₁') (h₂ : Mirrored π m e₂ e₂') :
    Mirrored π m (if c then e₁ else e₂) (if c then e₁' else e₂') := by
  split
  · exact h₁
  · exact h₂

theorem onHeap {f : Heap → α × Heap} {f' : Heap → β × Heap}
    (h : ∀ g h h', Heap.Mirrors π g h h' →
      (f' h').1 = m (f h).1 ∧ Heap.Mirrors π g (f h).2 (f' h').2) :
    Mirrored π m (Eval.onHeap f) (Eval.onHeap f') := by
  intro s s' hs
  obtain ⟨hresult, hheap⟩ := h _ _ _ hs.heap
  have hends := MirrorEnds.ok (m := m) (f s.heap).1 (hs.withHeap hheap)
  rw [← hresult] at hends
  exact hends

theorem map {e : Eval α} {e' : Eval β} (h : Mirrored π m e e') {f : α → γ} {f' : β → δ}
    (hf : ∀ a, f' (m a) = n (f a)) : Mirrored π n (f <$> e) (f' <$> e') := by
  rw [map_eq_pure_bind, map_eq_pure_bind]
  exact h.bind fun a => .pure (hf a)

theorem discard {e : Eval α} {e' : Eval β} (h : Mirrored π m e e') :
    Agreed π (discard e) (discard e') :=
  h.map fun _ => rfl

theorem mapM {f : α → Eval γ} {f' : α → Eval δ} {as : List α}
    (h : ∀ a, Mirrored π n (f a) (f' a)) :
    Mirrored π (List.map n) (as.mapM f) (as.mapM f') := by
  induction as with
  | nil =>
    rw [List.mapM_nil, List.mapM_nil]
    exact .pure rfl
  | cons a as ih =>
    rw [List.mapM_cons, List.mapM_cons]
    exact (h a).bind fun c => ih.bind fun cs => .pure rfl

theorem foldlM {f : γ → α → Eval γ} {f' : δ → α → Eval δ} {as : List α}
    (h : ∀ a c, Mirrored π n (f c a) (f' (n c) a)) (c : γ) :
    Mirrored π n (as.foldlM f c) (as.foldlM f' (n c)) := by
  induction as generalizing c with
  | nil => exact .pure rfl
  | cons a as ih =>
    rw [List.foldlM_cons, List.foldlM_cons]
    exact (h a c).bind fun c => ih c

theorem forIn {f : α → Eval γ} {f' : β → Eval δ} {as : List α} {bs : List β} (hbs : bs = as.map m)
    (h : ∀ a, Mirrored π n (f a) (f' (m a))) :
    Agreed π (forIn as PUnit.unit fun a _ => f a >>= fun _ => Pure.pure (.yield ⟨⟩))
      (forIn bs PUnit.unit fun b _ => f' b >>= fun _ => Pure.pure (.yield ⟨⟩)) := by
  subst hbs
  induction as with
  | nil => exact .pure rfl
  | cons a as ih =>
    rw [List.map_cons, List.forIn_cons, List.forIn_cons]
    simp only [bind_assoc, pure_bind]
    exact (h a).bind fun _ => ih

end Mirrored

namespace Library

variable {call call' : Callback}

/-! ### Arguments -/

section Arguments

variable (f : Builtin) (args : List Value) (i : Nat)

@[simp] theorem arg?_moved : arg? (args.map (·.moved π)) i = (arg? args i).map (·.moved π) :=
  List.getElem?_map

@[simp] theorem optArg_moved : optArg (args.map (·.moved π)) i = (optArg args i).moved π :=
  Value.getD_map_moved args i

@[simp] theorem given_moved : given (args.map (·.moved π)) i = given args i := by
  unfold given
  rw [arg?_moved]
  cases arg? args i with
  | none => rfl
  | some v => exact v.typeName_moved

theorem bad_mirrored (reason : String) : Mirrored π m (bad f i reason) (bad f i reason) :=
  .fault _

theorem anyArg_mirrored :
    Mirrored π (·.moved π) (anyArg f args i) (anyArg f (args.map (·.moved π)) i) := by
  unfold anyArg
  rw [arg?_moved]
  cases arg? args i with
  | none => exact bad_mirrored f i _
  | some v => exact .pure rfl

theorem tableArg_agreed : Agreed π (tableArg f args i) (tableArg f (args.map (·.moved π)) i) := by
  unfold tableArg
  rw [arg?_moved, given_moved]
  cases arg? args i with
  | none => exact bad_mirrored f i _
  | some v =>
    cases v with
    | table r => exact .pure rfl
    | _ => exact bad_mirrored f i _

theorem functionArg_mirrored :
    Mirrored π (·.moved π) (functionArg f args i) (functionArg f (args.map (·.moved π)) i) := by
  unfold functionArg
  rw [arg?_moved, given_moved]
  cases arg? args i with
  | none => exact bad_mirrored f i _
  | some v =>
    dsimp only [Option.map]
    rw [v.isFunction_moved]
    exact .ite (.pure rfl) (bad_mirrored f i _)

theorem numberArg_mirrored :
    Mirrored π (·.moved π) (numberArg f args i) (numberArg f (args.map (·.moved π)) i) := by
  unfold numberArg
  rw [optArg_moved, given_moved, Value.toNumber?_moved]
  cases hnumber : (optArg args i).toNumber? with
  | none => exact bad_mirrored f i _
  | some v => exact .pure (Value.moved_of_toNumber? hnumber).symm

theorem integerArg_agreed :
    Agreed π (integerArg f args i) (integerArg f (args.map (·.moved π)) i) := by
  refine (numberArg_mirrored f args i).bind fun v => ?_
  rw [v.toInteger?_moved]
  split
  · exact .pure rfl
  · exact bad_mirrored f i _

theorem integerOr_agreed (default : Int) :
    Agreed π (integerOr f args i default) (integerOr f (args.map (·.moved π)) i default) := by
  unfold integerOr
  rw [optArg_moved]
  cases optArg args i with
  | nil => exact .pure rfl
  | _ => exact integerArg_agreed f args i

theorem floatArg_agreed : Agreed π (floatArg f args i) (floatArg f (args.map (·.moved π)) i) := by
  refine (numberArg_mirrored f args i).bind fun v => ?_
  rw [v.toDouble?_moved]
  split <;> exact .pure rfl

theorem bytesArg_agreed : Agreed π (bytesArg f args i) (bytesArg f (args.map (·.moved π)) i) := by
  unfold bytesArg
  rw [optArg_moved, given_moved, Value.toBytes?_moved]
  split
  · exact .pure rfl
  · exact bad_mirrored f i _

theorem bytesOr_agreed (default : Bytes) :
    Agreed π (bytesOr f args i default) (bytesOr f (args.map (·.moved π)) i default) := by
  unfold bytesOr
  rw [optArg_moved]
  cases optArg args i with
  | nil => exact .pure rfl
  | _ => exact bytesArg_agreed f args i

end Arguments

theorem lift_mirrored {m : α → α} {x : Except Fault α} (h : ∀ a, x = .ok a → m a = a) :
    Mirrored π m (lift x) (lift x) := by
  cases x with
  | ok a => exact .pure (h a rfl).symm
  | error f => exact .fault f

theorem lift_map_mirrored (x : Except Fault α) : Mirrored π m (lift x) (lift (x.map m)) := by
  cases x with
  | ok a => exact .pure rfl
  | error f => exact .fault f

/-! ### Callbacks, fields and operators -/

def CallsMirrored (π : Nat ↪ Nat) (call call' : Callback) : Prop :=
  ∀ f args, Mirrored π (List.map (·.moved π)) (call f args)
    (call' (f.moved π) (args.map (·.moved π)))

variable (hcall : CallsMirrored π call call')
include hcall

theorem settle_mirrored (a : Answer) :
    Mirrored π (·.moved π) (Eval.settle call a) (Eval.settle call' (a.moved π)) := by
  cases a with
  | value v => exact .pure rfl
  | call f args => exact (hcall f args).bind fun vs => .pure (Value.headD_map_moved vs)
  | fault f => exact .fault f

theorem getField_mirrored (object key : Value) :
    Mirrored π (·.moved π) (Eval.getField call object key)
      (Eval.getField call' (object.moved π) (key.moved π)) := by
  refine .get_bind fun s s' hs => ?_
  rw [hs.index]
  exact settle_mirrored hcall _

omit hcall in
theorem setField_agreed (r : Nat) (k v : Value) :
    Agreed π (Eval.setField r k v) (Eval.setField r (k.moved π) (v.moved π)) :=
  .onHeap fun _ _ _ hh => ⟨rfl, hh.setField r k v⟩

private theorem putField_agreed (object key value : Value) :
    Agreed π (Eval.putField call object key value)
      (Eval.putField call' (object.moved π) (key.moved π) (value.moved π)) := by
  refine .get_bind fun s s' hs => ?_
  rw [hs.storing]
  cases storing s longestChain object key value with
  | field r k => exact setField_agreed r k value
  | call f args => exact (hcall f args).discard
  | fault f => exact .fault f

theorem fieldAt_mirrored (t : Value) (i : Int) :
    Mirrored π (·.moved π) (fieldAt call t i) (fieldAt call' (t.moved π) i) :=
  getField_mirrored hcall t (ofInt i)

theorem putAt_agreed (t : Value) (i : Int) (v : Value) :
    Agreed π (putAt call t i v) (putAt call' (t.moved π) i (v.moved π)) :=
  putField_agreed hcall t (ofInt i) v

theorem lengthOf_agreed (v : Value) :
    Agreed π (lengthOf call v) (lengthOf call' (v.moved π)) := by
  refine .get_bind fun s s' hs => ?_
  rw [hs.length]
  refine (settle_mirrored hcall _).bind fun n => ?_
  rw [n.toInteger?_moved]
  split
  · exact .pure rfl
  · exact .fault _

theorem textOf_agreed (v : Value) : Agreed π (textOf call v) (textOf call' (v.moved π)) := by
  refine .get_bind fun s s' hs => ?_
  rw [hs.metamethod]
  cases s.metamethod v Event.tostring with
  | nil =>
    cases v with
    | hosted r =>
      dsimp only [Value.moved_hosted, Value.moved_nil]
      rw [hs.tags]
      cases htag : s.tags[r]? with
      | some tag => exact .pure rfl
      | none =>
        rw [hs.untagged r htag]
        exact .pure rfl
    | table r =>
      have hname := hs.metamethod (.table r) Event.name
      dsimp only [Value.moved_table, Value.moved_nil] at hname ⊢
      rw [hname]
      cases s.metamethod (.table r) Event.name <;> exact .pure rfl
    | _ => exact .pure rfl
  | _ =>
    refine (hcall _ [v]).bind fun vs => ?_
    rw [Value.headD_map_moved]
    generalize vs.headD .nil = r
    cases r <;> first | exact .pure rfl | exact .fault _

end Library

end Pagewright.Script
