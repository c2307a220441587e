import Pagewright.Proofs.Agreement

/-! The arguments of library functions, and fields and operators as these use them, in a confined
store. -/
namespace Pagewright.Script.Library

variable {g : Globals} {w : Set Nat} {call call' : Callback}

/-! Arguments. -/

theorem toNumber?_within {v n : Value} (h : v.toNumber? = some n) : n.Within w := by
  cases v with
  | integer i => exact Option.some.inj h ▸ trivial
  | float d => exact Option.some.inj h ▸ trivial
  | string s =>
      obtain ⟨l, -, rfl⟩ := Option.map_eq_some_iff.mp h
      exact l.within
  | _ => cases h

theorem getD_within {o : Option Value} (h : ∀ v, o = some v → v.Within w) :
    (o.getD .nil).Within w := by
  cases o with
  | none => trivial
  | some v => exact h v rfl

theorem bad_keeps {α : Type} {Q : α → Prop} (f : Builtin) (i : Nat) (reason : String) :
    Keeps g w (bad f i reason) Q :=
  Same.fault _

theorem anyArg_keeps (f : Builtin) {args : List Value} (h : AllWithin w args) (i : Nat) :
    Keeps g w (anyArg f args i) (·.Within w) := by
  unfold anyArg arg?
  split
  · rename_i v hv
    exact .pure (h v (List.mem_of_getElem? hv))
  · exact bad_keeps f i _

theorem optArg_within {args : List Value} (h : AllWithin w args) (i : Nat) :
    (optArg args i).Within w :=
  h.getD i

theorem tableArg_keeps (f : Builtin) {args : List Value} {i : Nat} {w' : Set Nat}
    (h : (optArg args i).Within w') : Keeps g w (tableArg f args i) (· ∈ w') := by
  unfold tableArg arg?
  split
  · rename_i r hr
    unfold optArg at h
    rw [List.getD_eq_getElem?_getD, hr] at h
    exact .pure h
  · exact bad_keeps f i _

theorem functionArg_keeps (f : Builtin) {args : List Value} (h : AllWithin w args) (i : Nat) :
    Keeps g w (functionArg f args i) (·.Within w) := by
  unfold functionArg arg?
  split
  · rename_i v hv
    split
    · exact .pure (h v (List.mem_of_getElem? hv))
    · exact bad_keeps f i _
  · exact bad_keeps f i _

theorem numberArg_keeps (f : Builtin) (args : List Value) (i : Nat) :
    Keeps g w (numberArg f args i) (·.Within w) := by
  unfold numberArg
  split
  · rename_i v hv
    exact .pure (toNumber?_within hv)
  · exact bad_keeps f i _

theorem integerArg_keeps (f : Builtin) (args : List Value) (i : Nat) :
    Keeps g w (integerArg f args i) fun _ => True := by
  refine (numberArg_keeps f args i).bind fun v _ => ?_
  split
  · exact .pure trivial
  · exact bad_keeps f i _

theorem integerOr_keeps (f : Builtin) (args : List Value) (i : Nat) (default : Int) :
    Keeps g w (integerOr f args i default) fun _ => True := by
  unfold integerOr
  split
  · exact .pure trivial
  · exact integerArg_keeps f args i

theorem floatArg_keeps (f : Builtin) (args : List Value) (i : Nat) :
    Keeps g w (floatArg f args i) fun _ => True := by
  refine (numberArg_keeps f args i).bind fun v _ => ?_
  split
  · exact .pure trivial
  · exact .pure trivial

theorem bytesArg_keeps (f : Builtin) (args : List Value) (i : Nat) :
    Keeps g w (bytesArg f args i) fun _ => True := by
  unfold bytesArg
  split
  · exact .pure trivial
  · exact bad_keeps f i _

theorem bytesOr_keeps (f : Builtin) (args : List Value) (i : Nat) (default : Bytes) :
    Keeps g w (bytesOr f args i default) fun _ => True := by
  unfold bytesOr
  split
  · exact .pure trivial
  · exact bytesArg_keeps f args i

theorem lift_keeps {α : Type} {x : Except Fault α} {Q : α → Prop} (h : ∀ a, x = .ok a → Q a) :
    Keeps g w (lift x) Q := by
  cases x with
  | ok a => exact .pure (h a rfl)
  | error f => exact Same.fault f

theorem table_keeps {r : Nat} (hr : r ∈ w) : Keeps g w (Eval.table r) (Table.Within w) :=
  Same.get.bind fun _ hs => .pure (hs.contents r hr)

/-! Fields and operators. -/

theorem settle_same {a : Answer} {w' : Set Nat} (h : a.Settled w') :
    Same g w (Eval.settle call a) (Eval.settle call' a) (·.Within w') := by
  cases a with
  | value v => exact .pure h
  | call f args => exact absurd h id
  | fault f => exact Same.fault f

theorem getField_same {object key : Value} (h : object.Within w) (hkey : key.normalKey ≠ selfName) :
    Same g w (Eval.getField call object key) (Eval.getField call' object key) (·.Within w) :=
  Same.get.bind fun _ hs => settle_same <| index_settled hs _ subset_rfl h fun hlost =>
    absurd (Heap.eq_selfName_of_asksLostName hlost) hkey

theorem getField_any {object : Value} (h : object.Within w) (key : Value) :
    Same g w (Eval.getField call object key) (Eval.getField call' object key) fun _ => True :=
  Same.get.bind fun _ hs =>
    (settle_same (index_settled hs _ (Set.subset_univ w) h fun _ => trivial)).mono
      fun _ _ => trivial

theorem fieldAt_same {t : Value} (h : t.Within w) (i : Int) :
    Same g w (fieldAt call t i) (fieldAt call' t i) (·.Within w) :=
  getField_same h Value.noConfusion

theorem putAt_same {t v : Value} (ht : t.Changeable w) (hv : v.Within w) (i : Int) :
    Same g w (putAt call t i v) (putAt call' t i v) fun _ => True := by
  refine Same.get.bind fun s hs => ?_
  have hsettled := storing_settled hs longestChain ht (ofInt i) v
  cases hstoring : storing s longestChain t (ofInt i) v with
  | field r k =>
      rw [hstoring] at hsettled
      obtain ⟨hr, hk⟩ := hsettled
      obtain rfl := Except.ok.inj hk
      exact Keeps.onHeap fun s' hs' =>
        ⟨hs'.setField hr trivial hv, trivial⟩
  | call f args =>
      rw [hstoring] at hsettled
      exact absurd hsettled id
  | fault f => exact Same.fault f

theorem lengthOf_same {v : Value} (h : v.Within w) :
    Same g w (lengthOf call v) (lengthOf call' v) fun _ => True := by
  refine Same.get.bind fun s hs => (settle_same (length_settled hs h)).bind fun n _ => ?_
  split
  · exact .pure trivial
  · exact Same.fault _

theorem textOf_same {v : Value} (h : v.Within w) :
    Same g w (textOf call v) (textOf call' v) fun _ => True := by
  have htostring : Event.tostring ≠ Event.index := Event.ne_index (by simp)
  refine Same.get.bind fun s hs => ?_
  rw [hs.metamethod h htostring]
  cases v with
  | hosted r =>
      dsimp only
      split <;> exact .pure trivial
  | table r =>
      dsimp only
      split <;> exact .pure trivial
  | _ => exact .pure trivial

/-! Callbacks. -/

def CallsAgree (g : Globals) (call call' : Callback) : Prop :=
  ∀ {w : Set Nat} {f : Value} {args : List Value}, f.Within w → AllWithin w args →
    Agrees g w (call f args) (call' f args) AllWithin

end Pagewright.Script.Library
