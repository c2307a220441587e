import Pagewright.Proofs.MirroredStores
import Pagewright.Script.Operation

/-! What operations come to in a store and in its mirror: the same, with the tags at other places. -/
namespace Pagewright.Script

variable {π : Nat ↪ Nat}

def Answer.moved (π : Nat ↪ Nat) : Answer → Answer
  | .value v => .value (v.moved π)
  | .call f args => .call (f.moved π) (args.map (·.moved π))
  | .fault f => .fault f

def Storing.moved (π : Nat ↪ Nat) : Storing → Storing
  | .field r k => .field r (k.moved π)
  | .call f args => .call (f.moved π) (args.map (·.moved π))
  | .fault f => .fault f

/-! ### What values show of themselves -/

namespace Value

variable (v : Value)

@[simp] theorem truthy_moved : (v.moved π).truthy = v.truthy := by cases v <;> rfl

@[simp] theorem isFunction_moved : (v.moved π).isFunction = v.isFunction := by cases v <;> rfl

@[simp] theorem typeName_moved : (v.moved π).typeName = v.typeName := by cases v <;> rfl

@[simp] theorem kindName_moved : (v.moved π).kindName = v.kindName := by cases v <;> rfl

@[simp] theorem isNumber_moved : (v.moved π).isNumber = v.isNumber := by cases v <;> rfl

@[simp] theorem toNumber?_moved : (v.moved π).toNumber? = v.toNumber? := by cases v <;> rfl

@[simp] theorem toDouble?_moved : (v.moved π).toDouble? = v.toDouble? := by cases v <;> rfl

@[simp] theorem toInteger?_moved : (v.moved π).toInteger? = v.toInteger? := by cases v <;> rfl

@[simp] theorem toBytes?_moved : (v.moved π).toBytes? = v.toBytes? := by cases v <;> rfl

@[simp] theorem normalKey_moved : (v.moved π).normalKey = v.normalKey.moved π := by
  cases v with
  | float d =>
    simp only [moved, normalKey]
    cases intOfDouble? d <;> rfl
  | _ => rfl

@[simp] theorem rawEqual_moved (v' : Value) :
    (v.moved π).rawEqual (v'.moved π) = v.rawEqual v' := by
  cases v <;> cases v' <;> first | rfl | simp [moved, rawEqual]

theorem moved_of_toNumber? {v n : Value} (h : v.toNumber? = some n) : n.moved π = n := by
  cases v with
  | integer i => exact Option.some.inj h ▸ rfl
  | float d => exact Option.some.inj h ▸ rfl
  | string s =>
    obtain ⟨l, -, rfl⟩ := Option.map_eq_some_iff.mp h
    cases l <;> rfl
  | _ => cases h

end Value

@[simp] theorem Literal.value_moved (l : Literal) : l.value.moved π = l.value := by cases l <;> rfl

@[simp] theorem checkedKey_moved (k : Value) :
    checkedKey (k.moved π) = (checkedKey k).map (·.moved π) := by
  unfold checkedKey
  rw [k.normalKey_moved]
  cases k.normalKey with
  | float d =>
    simp only [Value.moved_float]
    split <;> rfl
  | _ => rfl

/-! ### Operations -/

@[simp] theorem arithNumbers_moved (op : ArithOp) (a b : Value) :
    arithNumbers op (a.moved π) (b.moved π) = (arithNumbers op a b).moved π := by
  have hsame : arithNumbers op (a.moved π) (b.moved π) = arithNumbers op a b := by
    cases a <;> cases b <;> rfl
  have hplain : (arithNumbers op a b).moved π = arithNumbers op a b := by
    unfold arithNumbers
    dsimp only
    repeat' split
    all_goals rfl
  rw [hsame, hplain]

@[simp] private theorem order?_moved (a b : Value) :
    order? (a.moved π) (b.moved π) = order? a b := by
  cases a <;> cases b <;> rfl

namespace Store.Mirrors

variable {s s' : Store} (m : s.Mirrors π s') (a b : Value)
include m

theorem arith (op : ArithOp) :
    arith s' op (a.moved π) (b.moved π) = (arith s op a b).moved π := by
  unfold Script.arith
  simp only [Value.isNumber_moved, Value.toNumber?_moved, Value.typeName_moved, m.metamethodOf]
  split
  · exact arithNumbers_moved op a b
  · cases s.metamethodOf (Event.ofArith op) a b with
    | nil =>
      dsimp only [Value.moved_nil]
      split
      · rename_i x y hx hy
        rw [← arithNumbers_moved, Value.moved_of_toNumber? hx, Value.moved_of_toNumber? hy]
      · rfl
      · rfl
    | _ => rfl

theorem bitwise (op : BitOp) :
    bitwise s' op (a.moved π) (b.moved π) = (bitwise s op a b).moved π := by
  unfold Script.bitwise
  simp only [Value.isNumber_moved, Value.toInteger?_moved, Value.typeName_moved, m.metamethodOf]
  split
  · rfl
  · cases s.metamethodOf (Event.ofBits op) a b with
    | nil =>
      dsimp only [Value.moved_nil]
      split <;> rfl
    | _ => rfl

theorem concat : concat s' (a.moved π) (b.moved π) = (concat s a b).moved π := by
  unfold Script.concat
  simp only [Value.toBytes?_moved, Value.typeName_moved, m.metamethodOf]
  split
  · rfl
  · cases s.metamethodOf Event.concat a b <;> rfl

theorem negate : negate s' (a.moved π) = (negate s a).moved π := by
  have hmeta := m.metamethod a Event.negate
  cases a with
  | integer i => rfl
  | float d => rfl
  | _ =>
    unfold Script.negate
    dsimp only [Value.moved] at hmeta ⊢
    rw [hmeta]
    cases s.metamethod _ Event.negate with
    | nil => first | rfl | (dsimp only; split <;> rfl)
    | _ => rfl

theorem complement : complement s' (a.moved π) = (complement s a).moved π := by
  unfold Script.complement
  simp only [Value.isNumber_moved, Value.toInteger?_moved, Value.typeName_moved, m.metamethod]
  split
  · rfl
  · cases s.metamethod a Event.complement <;> rfl

theorem length : length s' (a.moved π) = (length s a).moved π := by
  have hmeta := m.metamethod a Event.length
  cases a with
  | string t => rfl
  | table r =>
    unfold Script.length
    dsimp only [Value.moved_table] at hmeta ⊢
    rw [hmeta]
    cases s.metamethod (.table r) Event.length with
    | nil => exact congrArg (fun n => Answer.value (.integer (Int64.ofNat n))) (m.heap.border r)
    | _ => rfl
  | _ => rfl

theorem unary (op : UnaryOp) : unary s' op (a.moved π) = (unary s op a).moved π := by
  cases op with
  | negate => exact m.negate a
  | not =>
    unfold Script.unary
    rw [Value.truthy_moved]
    rfl
  | length => exact m.length a
  | complement => exact m.complement a

theorem below (orEqual : Bool) :
    below s' orEqual (a.moved π) (b.moved π) = (below s orEqual a b).moved π := by
  unfold Script.below
  simp only [order?_moved, Value.typeName_moved, m.metamethodOf]
  split
  · rfl
  · cases s.metamethodOf (if orEqual then Event.lessEqual else Event.less) a b <;> rfl

theorem equal : equal s' (a.moved π) (b.moved π) = (equal s a b).moved π := by
  have hmeta := m.metamethodOf Event.equal a b
  unfold Script.equal
  rw [Value.rawEqual_moved]
  split
  · rfl
  · cases a with
    | table r =>
      cases b with
      | table r' =>
        dsimp only [Value.moved_table] at hmeta ⊢
        rw [hmeta]
        cases s.metamethodOf Event.equal (.table r) (.table r') <;> rfl
      | _ => rfl
    | _ => rfl

theorem compareValues (op : CompareOp) :
    compareValues s' op (a.moved π) (b.moved π) =
      ((compareValues s op a b).1.moved π, (compareValues s op a b).2) := by
  cases op with
  | equal => exact congrArg (·, false) (m.equal a b)
  | unequal => exact congrArg (·, true) (m.equal a b)
  | less => exact congrArg (·, false) (m.below a b false)
  | lessEqual => exact congrArg (·, false) (m.below a b true)
  | greater => exact congrArg (·, false) (m.below b a false)
  | greaterEqual => exact congrArg (·, false) (m.below b a true)

/-! Fields. -/

theorem index (fuel : Nat) (object key : Value) :
    index s' fuel (object.moved π) (key.moved π) = (index s fuel object key).moved π := by
  induction fuel generalizing object with
  | zero => rfl
  | succ fuel ih =>
    have hmeta := m.metamethod object Event.index
    unfold Script.index
    cases object with
    | table r =>
      have hown := m.heap.get r key.normalKey
      dsimp only [Value.moved_table] at hmeta ⊢
      rw [key.normalKey_moved, hown, hmeta]
      cases (s.heap.table r).get key.normalKey with
      | nil =>
        cases s.metamethod (.table r) Event.index with
        | nil | closure | builtin | generator => rfl
        | _ => exact ih _
      | _ => rfl
    | _ =>
      dsimp only
      rw [hmeta]
      cases s.metamethod _ Event.index with
      | nil | closure | builtin | generator => rfl
      | _ => exact ih _

theorem storing (fuel : Nat) (object key value : Value) :
    storing s' fuel (object.moved π) (key.moved π) (value.moved π) =
      (storing s fuel object key value).moved π := by
  have hinto (r : Nat) : Storing.into r (key.moved π) = (Storing.into r key).moved π := by
    unfold Storing.into
    rw [checkedKey_moved]
    cases checkedKey key <;> rfl
  induction fuel generalizing object with
  | zero => rfl
  | succ fuel ih =>
    have hmeta := m.metamethod object Event.newIndex
    unfold Script.storing
    cases object with
    | table r =>
      have hown := m.heap.get r key.normalKey
      dsimp only [Value.moved_table] at hmeta ⊢
      rw [key.normalKey_moved, hown, hmeta]
      cases (s.heap.table r).get key.normalKey with
      | nil =>
        cases s.metamethod (.table r) Event.newIndex with
        | nil => exact hinto r
        | closure r => rfl
        | builtin f => rfl
        | generator r => rfl
        | _ => exact ih _
      | _ => exact hinto r
    | _ =>
      simp only [hmeta, Value.typeName_moved]
      generalize s.metamethod _ Event.newIndex = handler
      cases handler with
      | nil => rfl
      | closure r => rfl
      | builtin f => rfl
      | generator r => rfl
      | _ => exact ih _

end Store.Mirrors

end Pagewright.Script
