import Pagewright.Proofs.Confinement

/-! What operations come to in a confined store. The only metamethod there is leads from environments and
strings to where their missing fields are found, so no operation calls a function. -/
namespace Pagewright.Script

variable {g : Globals} {w : Set Nat} {s : Store}

def Answer.Settled (w : Set Nat) : Answer → Prop
  | .value v => v.Within w
  | .call _ _ => False
  | .fault _ => True

def Storing.Settled (w : Set Nat) (key : Value) : Storing → Prop
  | .field r k => r ∈ w \ {0} ∧ checkedKey key = .ok k
  | .call _ _ => False
  | .fault _ => True

/-! Events. Only that of fields has a metamethod. -/

theorem Event.ne_index {event : Bytes}
    (h : event ∈ [negate, complement, concat, length, equal, less, lessEqual, newIndex, call,
      close, tostring, pairs]) : event ≠ index := by
  revert event
  decide +kernel

@[simp] theorem Event.ofArith_ne_index (op : ArithOp) : Event.ofArith op ≠ Event.index := by
  cases op <;> decide +kernel

@[simp] theorem Event.ofBits_ne_index (op : BitOp) : Event.ofBits op ≠ Event.index := by
  cases op <;> decide +kernel

@[simp] private theorem fallThrough_get {event : Bytes} (h : event ≠ Event.index) :
    fallThrough.get (.string event) = .nil :=
  if_neg fun heq => h (Value.string.inj heq).symm

@[simp] private theorem stringMethods_get {event : Bytes} (h : event ≠ Event.index) :
    stringMethods.get (.string event) = .nil :=
  if_neg fun heq => h (Value.string.inj heq).symm

theorem Confined.metamethod (h : Confined g w s) {v : Value} (hv : v.Within w) {event : Bytes}
    (hevent : event ≠ Event.index) : s.metamethod v event = .nil := by
  cases v with
  | table r =>
      unfold Store.metamethod Store.metatable?
      split
      · rename_i m hm
        rw [(h.environments r hv m hm).2.2.2]
        exact fallThrough_get hevent
      · rfl
  | string b =>
      simp only [Store.metamethod, Store.metatable?, h.strings, h.strings_kept]
      exact stringMethods_get hevent
  | _ => rfl

theorem Confined.metamethodOf (h : Confined g w s) {a b : Value} (ha : a.Within w)
    (hb : b.Within w) {event : Bytes} (hevent : event ≠ Event.index) :
    s.metamethodOf event a b = .nil := by
  unfold Store.metamethodOf
  rw [h.metamethod ha hevent, h.metamethod hb hevent]

/-! Arithmetic and the like. -/

@[simp] theorem arithNumbers_settled (op : ArithOp) (a b : Value) :
    (arithNumbers op a b).Settled w := by
  unfold arithNumbers
  dsimp only
  repeat' split
  all_goals trivial

theorem arith_settled (h : Confined g w s) (op : ArithOp) {a b : Value} (ha : a.Within w)
    (hb : b.Within w) : (arith s op a b).Settled w := by
  have hevent := Event.ofArith_ne_index op
  unfold arith
  rw [h.metamethodOf ha hb hevent]
  split
  · exact arithNumbers_settled op a b
  · dsimp only
    split
    · exact arithNumbers_settled op _ _
    · trivial
    · trivial

theorem bitwise_settled (h : Confined g w s) (op : BitOp) {a b : Value} (ha : a.Within w)
    (hb : b.Within w) : (bitwise s op a b).Settled w := by
  have hevent := Event.ofBits_ne_index op
  unfold bitwise
  rw [h.metamethodOf ha hb hevent]
  split
  · trivial
  · dsimp only
    split <;> trivial

theorem concat_settled (h : Confined g w s) {a b : Value} (ha : a.Within w) (hb : b.Within w) :
    (concat s a b).Settled w := by
  have hevent : Event.concat ≠ Event.index := Event.ne_index (by simp)
  unfold concat
  rw [h.metamethodOf ha hb hevent]
  split <;> trivial

private theorem negate_settled (h : Confined g w s) {a : Value} (ha : a.Within w) :
    (negate s a).Settled w := by
  have hevent : Event.negate ≠ Event.index := Event.ne_index (by simp)
  unfold negate
  split
  · trivial
  · trivial
  · rw [h.metamethod ha hevent]
    cases a.toNumber? with
    | none => trivial
    | some n => cases n <;> trivial

private theorem complement_settled (h : Confined g w s) {a : Value} (ha : a.Within w) :
    (complement s a).Settled w := by
  have hevent : Event.complement ≠ Event.index := Event.ne_index (by simp)
  unfold complement
  rw [h.metamethod ha hevent]
  split <;> trivial

theorem length_settled (h : Confined g w s) {a : Value} (ha : a.Within w) :
    (length s a).Settled w := by
  have hevent : Event.length ≠ Event.index := Event.ne_index (by simp)
  unfold length
  split
  · trivial
  · rw [h.metamethod ha hevent]
    cases a <;> trivial

theorem unary_settled (h : Confined g w s) (op : UnaryOp) {a : Value} (ha : a.Within w) :
    (unary s op a).Settled w := by
  cases op with
  | negate => exact negate_settled h ha
  | not => trivial
  | length => exact length_settled h ha
  | complement => exact complement_settled h ha

theorem below_settled (h : Confined g w s) (orEqual : Bool) {a b : Value} (ha : a.Within w)
    (hb : b.Within w) : (below s orEqual a b).Settled w := by
  have hevent : (if orEqual then Event.lessEqual else Event.less) ≠ Event.index := by
    cases orEqual <;> exact Event.ne_index (by simp)
  unfold below
  rw [h.metamethodOf ha hb hevent]
  split <;> trivial

theorem equal_settled (h : Confined g w s) {a b : Value} (ha : a.Within w) (hb : b.Within w) :
    (equal s a b).Settled w := by
  have hevent : Event.equal ≠ Event.index := Event.ne_index (by simp)
  unfold equal
  split
  · trivial
  · split
    · rw [h.metamethodOf ha hb hevent]
      trivial
    · trivial

theorem compareValues_settled (h : Confined g w s) (op : CompareOp) {a b : Value}
    (ha : a.Within w) (hb : b.Within w) : (compareValues s op a b).1.Settled w := by
  cases op with
  | equal => exact equal_settled h ha hb
  | unequal => exact equal_settled h ha hb
  | less => exact below_settled h false ha hb
  | lessEqual => exact below_settled h true ha hb
  | greater => exact below_settled h false hb ha
  | greaterEqual => exact below_settled h true hb ha

/-! Fields. -/

private theorem index_globals (h : Confined g w s) (fuel : Nat) {w' : Set Nat} (hw : w ⊆ w')
    {key : Value} (hself : key.normalKey = selfName → 0 ∈ w') :
    (index s fuel (.table 0) key).Settled w' := by
  have hown : (g.table.get key.normalKey).Within w' := by
    by_cases hkey : key.normalKey = selfName
    · rw [hkey]
      exact h.globals_self.mono (Set.insert_subset (hself hkey) hw)
    · exact (h.globals_open _ hkey).mono hw
  cases fuel with
  | zero => trivial
  | succ fuel =>
      unfold index
      dsimp only
      rw [h.globals_kept]
      split
      · have hplain : s.metamethod (.table 0) Event.index = .nil := by
          simp only [Store.metamethod, Store.metatable?, h.globals_kept, h.globals_plain]
        rw [hplain]
        trivial
      · exact hown

theorem index_table (h : Confined g w s) (fuel : Nat) {w' : Set Nat} (hw : w ⊆ w') {r : Nat}
    (hr : r ∈ w) {key : Value} (hlost : s.heap.asksLostName (.table r) key → 0 ∈ w') :
    (index s fuel (.table r) key).Settled w' := by
  cases fuel with
  | zero => trivial
  | succ fuel =>
      unfold index
      dsimp only
      split
      · rename_i hmissing
        cases hm : (s.heap.table r).metatable with
        | none =>
            have hnone : s.metamethod (.table r) Event.index = .nil := by
              simp only [Store.metamethod, Store.metatable?, hm]
            rw [hnone]
            trivial
        | some m =>
            have hmeta : s.metamethod (.table r) Event.index = .table 0 := by
              simp only [Store.metamethod, Store.metatable?, hm, (h.environments r hr m hm).2.2.2]
              rfl
            rw [hmeta]
            refine index_globals h fuel hw fun hkey => hlost ?_
            rw [hkey] at hmissing
            simp only [Heap.asksLostName, hkey, hm, hmissing, Option.isSome_some, decide_true,
              Bool.and_true]
      · exact ((h.contents r hr).get _).mono hw

theorem Heap.eq_selfName_of_asksLostName {h : Heap} {object key : Value}
    (hlost : h.asksLostName object key) : key.normalKey = selfName := by
  cases object with
  | table r =>
      simp only [Heap.asksLostName, Bool.and_eq_true, decide_eq_true_eq] at hlost
      exact hlost.1.1
  | _ => exact Bool.noConfusion hlost

theorem Confined.asksLostName_strings (h : Confined g w s) (key : Value) :
    s.heap.asksLostName (.table 1) key = false := by
  cases hm : (s.heap.table 1).metatable with
  | none =>
      simp only [Heap.asksLostName, hm, Option.isSome_none, Bool.and_false, Bool.false_and]
  | some m => exact absurd rfl (h.environments 1 h.string_library m hm).1

/-- Reading a field gives a visible value. Only where an environment has lost its own name it may be
the globals instead. -/
theorem index_settled (h : Confined g w s) (fuel : Nat) {w' : Set Nat} (hw : w ⊆ w')
    {object key : Value} (hobject : object.Within w)
    (hlost : s.heap.asksLostName object key → 0 ∈ w') :
    (index s fuel object key).Settled w' := by
  cases object with
  | table r => exact index_table h fuel hw hobject hlost
  | string b =>
      cases fuel with
      | zero => trivial
      | succ fuel =>
          have hmeta : s.metamethod (.string b) Event.index = .table 1 := by
            simp only [Store.metamethod, Store.metatable?, h.strings, h.strings_kept]
            rfl
          unfold index
          dsimp only
          rw [hmeta]
          refine index_table h fuel hw h.string_library fun hlost => ?_
          rw [h.asksLostName_strings] at hlost
          exact Bool.noConfusion hlost
  | _ => cases fuel <;> trivial

theorem index_eq_globals_iff (h : Confined g w s) (hhidden : g.hidden)
    (hself : g.table.get selfName = .table 0) {object : Value} (hobject : object.Within w)
    (key : Value) :
    index s longestChain object key = .value (.table 0) ↔ s.heap.asksLostName object key := by
  constructor
  · intro hindex
    by_contra hkept
    have hsettled := index_settled h longestChain subset_rfl hobject fun hlost => absurd hlost hkept
    rw [hindex] at hsettled
    exact absurd ((h.globals_hidden.mp hsettled).symm.trans hhidden) Bool.noConfusion
  · intro hlost
    have hkey := Heap.eq_selfName_of_asksLostName hlost
    cases object with
    | table r =>
        simp only [Heap.asksLostName, Bool.and_eq_true, decide_eq_true_eq] at hlost
        obtain ⟨⟨-, hmeta⟩, hmissing⟩ := hlost
        obtain ⟨m, hm⟩ := Option.isSome_iff_exists.mp hmeta
        have hindex : s.metamethod (.table r) Event.index = .table 0 := by
          simp only [Store.metamethod, Store.metatable?, hm, (h.environments r hobject m hm).2.2.2]
          rfl
        have hglobals (fuel : Nat) : index s (fuel + 1) (.table 0) key = .value (.table 0) := by
          unfold index
          simp only [h.globals_kept, hkey, hself]
        unfold longestChain index
        simp only [hkey, hmissing, hindex]
        exact hglobals _
    | _ => exact Bool.noConfusion hlost

theorem checkedKey_within {key k : Value} (hkey : key.Within w) (h : checkedKey key = .ok k) :
    k.Within w := by
  have hnormal := hkey.normalKey
  unfold checkedKey at h
  split at h
  · cases h
  · split at h
    · cases h
    · obtain rfl := Except.ok.inj h
      trivial
  · obtain rfl := Except.ok.inj h
    exact hnormal

theorem storing_settled (h : Confined g w s) (fuel : Nat) {object : Value}
    (hobject : object.Changeable w) (key value : Value) :
    (storing s fuel object key value).Settled w key := by
  have hevent : Event.newIndex ≠ Event.index := Event.ne_index (by simp)
  cases fuel with
  | zero => trivial
  | succ fuel =>
      have hmeta := h.metamethod hobject.within hevent
      have hraw {r : Nat} (hr : r ∈ w \ {0}) : (Storing.into r key).Settled w key := by
        unfold Storing.into
        split
        · rename_i k hk
          exact ⟨hr, hk⟩
        · trivial
      unfold storing
      cases object with
      | table r =>
          dsimp only
          rw [hmeta]
          split
          · exact hraw hobject
          · exact hraw hobject
      | _ =>
          dsimp only
          rw [hmeta]
          trivial

end Pagewright.Script
