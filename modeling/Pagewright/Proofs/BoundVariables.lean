import Mathlib.Algebra.Group.Int.Defs
import Mathlib.Data.List.Forall2
import Pagewright.Page.Variables
import Pagewright.Proofs.Agreement
import Pagewright.Proofs.TableEntries
import Pagewright.Proofs.TextBytes

/-! The table that is made of a page's variables: what it has under every key, and what was left out. -/
namespace Pagewright

/-! ### The names of an object -/

namespace JsonFields

variable {key : String} {fs : JsonFields}

theorem mem_insert {value : Json} {f : String × Json} (hf : f ∈ insert key value fs) :
    f = (key, value) ∨ f ∈ fs := by
  induction fs with
  | nil => exact .inl (List.mem_singleton.mp hf)
  | cons first rest ih =>
    rw [insert] at hf
    split at hf
    · exact List.mem_cons.mp hf
    · split at hf
      · obtain rfl | hrest := List.mem_cons.mp hf
        · exact .inr List.mem_cons_self
        · exact (ih hrest).imp_right (List.mem_cons_of_mem _)
      · exact (List.mem_cons.mp hf).imp_right (List.mem_cons_of_mem _)

theorem pairwise_insert (h : fs.Pairwise fun f g => f.1 < g.1) (value : Json) :
    (insert key value fs).Pairwise fun f g => f.1 < g.1 := by
  induction fs with
  | nil => exact List.pairwise_singleton _ _
  | cons first rest ih =>
    obtain ⟨hfirst, hrest⟩ := List.pairwise_cons.mp h
    rw [insert]
    split
    · next hlt =>
      refine List.Pairwise.cons (List.forall_mem_cons.mpr ⟨hlt, fun g hg => ?_⟩) h
      exact String.lt_trans hlt (hfirst g hg)
    · split
      · next hlt =>
        refine List.Pairwise.cons (fun g hg => ?_) (ih hrest)
        obtain rfl | hg := mem_insert hg
        · exact hlt
        · exact hfirst g hg
      · next hnot hnot' =>
        obtain rfl := String.le_antisymm (String.not_lt.mp hnot) (String.not_lt.mp hnot')
        exact List.pairwise_cons.mpr ⟨hfirst, hrest⟩

end JsonFields

namespace Page.Variables

open Script (Value Table Heap Store Eval)

def isScalar : Json → Bool
  | .string _ | .boolean _ | .number _ => true
  | _ => false

/-- What can be bound: scalars, and arrays of whatever they hold. -/
def isSupported : Json → Bool
  | .array _ => true
  | v => isScalar v

inductive Converts : Json → Value → Prop
  | string (s : String) : Converts (.string s) (.string (Bytes.ofText s))
  | boolean (b : Bool) : Converts (.boolean b) (.boolean b)
  /-- An integer of 64 bits with a sign. -/
  | integer {i : Int} : -2 ^ 63 ≤ i → i < 2 ^ 63 →
      Converts (.number (.integer i)) (.integer (Int64.ofInt i))
  /-- Any other integer. -/
  | wide {i : Int} : i < -2 ^ 63 ∨ 2 ^ 63 ≤ i → Converts (.number (.integer i)) (.float (.ofInt i))
  | float (d : Double) : Converts (.number (.float d)) (.float d)

structure Lists (t : Table) (vs : List Value) : Prop where
  not_nil : .nil ∉ vs
  value : ∀ (i : Int64) (_ : 1 ≤ i.toInt) (h : i.toInt.toNat - 1 < vs.length),
    t.get (.integer i) = vs[i.toInt.toNat - 1]
  only : ∀ k, t.get k ≠ .nil → ∃ i : Int64, k = .integer i ∧ 1 ≤ i.toInt ∧ i.toInt ≤ vs.length

/-- What a variable is bound to: an array becomes a list of the scalars among its items. -/
inductive Bound (h : Heap) : Json → Value → Prop
  | scalar {v : Json} {value : Value} : Converts v value → Bound h v value
  | list {items : List Json} {r : Nat} {vs : List Value} :
      List.Forall₂ Converts (items.filter isScalar) vs → Lists (h.table r) vs →
        Bound h (.array items) (.table r)

def kept (vars : Variables) : Variables :=
  vars.filterMap fun (key, v) =>
    match v with
    | .array items => some (key, .array (items.filter isScalar))
    | v => if isScalar v then some (key, v) else none

theorem number_integer (i : Int) :
    number (.integer i) =
      if -2 ^ 63 ≤ i ∧ i < 2 ^ 63 then .integer (Int64.ofInt i) else .float (.ofInt i) := by
  have hint : Value.int64? i =
      if -2 ^ 63 ≤ i ∧ i < 2 ^ 63 then some (Int64.ofInt i) else none := rfl
  rw [number, hint]
  by_cases hrange : -2 ^ 63 ≤ i ∧ i < 2 ^ 63
  · simp only [hrange, and_self, if_true]
  · simp only [hrange, if_false]

@[simp] theorem scalar?_eq_some_iff {v : Json} {value : Value} :
    scalar? v = some value ↔ Converts v value := by
  constructor
  · intro h
    cases v with
    | string s =>
      obtain rfl := Option.some.inj h
      exact .string s
    | boolean b =>
      obtain rfl := Option.some.inj h
      exact .boolean b
    | number n =>
      obtain rfl := Option.some.inj h
      cases n with
      | float d => exact .float d
      | integer i =>
        rw [number_integer]
        split
        · next hrange => exact .integer hrange.1 hrange.2
        · exact .wide (by omega)
    | _ => cases h
  · intro h
    cases h with
    | string s => rfl
    | boolean b => rfl
    | float d => rfl
    | integer hlow hhigh => rw [scalar?, number_integer, if_pos ⟨hlow, hhigh⟩]
    | wide hrange => rw [scalar?, number_integer, if_neg (by omega)]

@[simp] theorem scalar?_isSome (v : Json) : (scalar? v).isSome = isScalar v := by
  cases v <;> rfl

theorem forall₂_scalars (items : List Json) :
    List.Forall₂ Converts (items.filter isScalar) (items.filterMap scalar?) := by
  induction items with
  | nil => exact .nil
  | cons v items ih =>
    cases hv : scalar? v with
    | none =>
      have hnot : isScalar v = false := by rw [← scalar?_isSome, hv, Option.isSome_none]
      rwa [List.filterMap_cons_none hv, List.filter_cons_of_neg (by rw [hnot]; exact Bool.noConfusion)]
    | some value =>
      have hscalar : isScalar v = true := by rw [← scalar?_isSome, hv, Option.isSome_some]
      rw [List.filterMap_cons_some hv, List.filter_cons_of_pos hscalar]
      exact .cons (scalar?_eq_some_iff.mp hv) ih

theorem Converts.ne_nil {v : Json} {value : Value} (h : Converts v value) : value ≠ .nil := by
  cases h <;> exact Value.noConfusion

@[simp] private theorem nil_not_mem_scalars (items : List Json) :
    .nil ∉ items.filterMap scalar? := by
  intro hmem
  obtain ⟨v, -, hv⟩ := List.mem_filterMap.mp hmem
  exact (scalar?_eq_some_iff.mp hv).ne_nil rfl

theorem ofListWithin_get (places : Nat) (vs : List Value) (k : Value) :
    (Table.ofListWithin places vs).get k =
      match k with
      | .integer i => if 1 ≤ i.toInt then vs[i.toInt.toNat - 1]?.getD .nil else .nil
      | _ => .nil := by
  have hitem (n : Nat) : (vs ++ List.replicate (places - vs.length) Value.nil)[n]?.getD .nil =
      vs[n]?.getD .nil := by
    by_cases hn : n < vs.length
    · rw [List.getElem?_append_left hn]
    · rw [List.getElem?_append_right (by omega), List.getElem?_eq_none (by omega : vs.length ≤ n),
        List.getElem?_replicate]
      split <;> rfl
  unfold Table.ofListWithin Table.ofList Table.get Table.position?
  cases k with
  | integer i =>
    dsimp only
    by_cases hpos : 1 ≤ i.toInt
    · rw [if_pos hpos, ← hitem]
      split
      · next n hplace =>
        split at hplace
        · obtain rfl := Option.some.inj hplace
          rw [Array.getD_eq_getD_getElem?, List.getElem?_toArray]
        · cases hplace
      · next hplace =>
        split at hplace
        · cases hplace
        · next hout =>
          rw [List.size_toArray] at hout
          rw [List.getElem?_eq_none (by omega)]
          rfl
    · rw [if_neg hpos, if_neg fun h => hpos h.1]
      rfl
  | _ => rfl

private theorem lists_ofListWithin (places : Nat) {vs : List Value} (h : .nil ∉ vs) :
    Lists (.ofListWithin places vs) vs := by
  refine ⟨h, fun i hpos hlength => ?_, fun k hk => ?_⟩
  · rw [ofListWithin_get]
    dsimp only
    rw [if_pos hpos, List.getElem?_eq_getElem hlength, Option.getD_some]
  · rw [ofListWithin_get] at hk
    split at hk
    · next i =>
      split at hk
      · next hpos =>
        refine ⟨i, rfl, hpos, ?_⟩
        apply Classical.byContradiction
        intro hbehind
        apply hk
        rw [List.getElem?_eq_none (by omega), Option.getD_none]
      · exact absurd rfl hk
    · exact absurd rfl hk

/-! ### One variable after the other -/

def fields : Nat → Variables → List (String × Value)
  | _, [] => []
  | next, (key, v) :: rest =>
    match v, scalar? v with
    | _, some value => (key, value) :: fields next rest
    | .array _, none => (key, .table next) :: fields (next + 1) rest
    | _, none => fields next rest

def lists (vars : Variables) : List Table :=
  vars.filterMap fun (_, v) =>
    match v with
    | .array items => some (list items)
    | _ => none

def fill (t : Table) (fs : List (String × Value)) : Table :=
  fs.foldl (fun t (key, value) => t.set (Value.ofText key) value) t

structure Fills (table : Nat) (vars : Variables) (s s' : Store) : Prop where
  size : s'.heap.tables.size = s.heap.tables.size + (lists vars).length
  own : s'.heap.table table = fill (s.heap.table table) (fields s.heap.tables.size vars)
  old : ∀ r < s.heap.tables.size, r ≠ table → s'.heap.table r = s.heap.table r
  made : ∀ n, s'.heap.table (s.heap.tables.size + n) = (lists vars)[n]?.getD .empty
  log : s'.log = s.log

def bindEach (table : Nat) (vars : Variables) : Eval PUnit :=
  forIn vars PUnit.unit fun p _ => do
    bindOne table p.1 p.2
    pure (.yield ⟨⟩)

private theorem fields_scalar {key : String} {v : Json} {value : Value}
    (hv : scalar? v = some value) (next : Nat) (rest : Variables) :
    fields next ((key, v) :: rest) = (key, value) :: fields next rest := by
  cases v with
  | array items => cases hv
  | _ => simp only [fields, hv]

theorem lists_scalar {key : String} {v : Json} (hv : ∀ items, v ≠ .array items)
    (rest : Variables) : lists ((key, v) :: rest) = lists rest := by
  cases v with
  | array items => exact absurd rfl (hv items)
  | _ => rfl

@[simp] theorem lists_list (key : String) (items : List Json) (rest : Variables) :
    lists ((key, .array items) :: rest) = list items :: lists rest := rfl

private theorem fields_skip {key : String} {v : Json} (hnone : scalar? v = none)
    (hv : ∀ items, v ≠ .array items) (next : Nat) (rest : Variables) :
    fields next ((key, v) :: rest) = fields next rest := by
  cases v with
  | array items => exact absurd rfl (hv items)
  | _ => simp only [fields, hnone]

namespace Fills

variable {table : Nat} {key : String} {v : Json} {value : Value} {items : List Json}
  {rest : Variables} {s s' : Store}

theorem nil (table : Nat) (s : Store) : Fills table [] s s := by
  refine ⟨rfl, rfl, fun _ _ _ => rfl, fun n => ?_, rfl⟩
  unfold Heap.table
  rw [Array.getD_eq_getD_getElem?, Array.getElem?_eq_none (Nat.le_add_right _ n)]
  rfl

theorem scalar (htable : table < s.heap.tables.size) (hv : scalar? v = some value)
    (h : Fills table rest { s with heap := s.heap.setField table (.ofText key) value } s') :
    Fills table ((key, v) :: rest) s s' := by
  have hlists : lists ((key, v) :: rest) = lists rest := lists_scalar (by rintro _ rfl; cases hv) rest
  obtain ⟨hsize, hown, hold, hmade, hlog⟩ := h
  simp only [Script.Heap.size_setField, Script.Heap.table_setField _ htable]
    at hsize hown hold hmade
  refine ⟨?_, ?_, ?_, ?_, hlog⟩
  · rw [hsize, hlists]
  · rw [hown, fields_scalar hv]
    simp only [if_true]
    rfl
  · intro r hr hne
    rw [hold r hr hne, if_neg hne]
  · intro n
    rw [hmade n, hlists]

theorem list (htable : table < s.heap.tables.size)
    (h : Fills table rest
      { s with
        heap := (s.heap.newTable (Variables.list items)).2.setField table (.ofText key)
          (.table s.heap.tables.size) } s') :
    Fills table ((key, .array items) :: rest) s s' := by
  have htable' : table < (s.heap.newTable (Variables.list items)).2.tables.size := by
    rw [Script.Heap.size_newTable]
    omega
  obtain ⟨hsize, hown, hold, hmade, hlog⟩ := h
  simp only [Script.Heap.size_setField, Script.Heap.table_setField _ htable',
    Script.Heap.size_newTable, Script.Heap.table_newTable] at hsize hown hold hmade
  refine ⟨?_, ?_, ?_, ?_, hlog⟩
  · rw [hsize, lists_list, List.length_cons]
    omega
  · rw [hown]
    simp only [if_true, Nat.ne_of_lt htable, if_false]
    rfl
  · intro r hr hne
    rw [hold r (by omega) hne, if_neg hne, if_neg (by omega)]
  · intro n
    rw [lists_list]
    cases n with
    | zero =>
      rw [hold _ (by omega) (by omega), if_neg (by omega), if_pos (Nat.add_zero _)]
      rfl
    | succ n =>
      rw [Nat.add_comm n 1, ← Nat.add_assoc, hmade n, Nat.add_comm 1 n, List.getElem?_cons_succ]

theorem skip (hnone : scalar? v = none) (hv : ∀ items, v ≠ .array items)
    (h : Fills table rest s s') : Fills table ((key, v) :: rest) s s' := by
  have hlists : lists ((key, v) :: rest) = lists rest := lists_scalar hv rest
  refine ⟨?_, ?_, h.old, ?_, h.log⟩
  · rw [h.size, hlists]
  · rw [h.own, fields_skip hnone hv]
  · intro n
    rw [h.made, hlists]

end Fills

private theorem bindEach_fills (vars : Variables) {table : Nat} (s : Store)
    (htable : table < s.heap.tables.size) :
    ∃ s', bindEach table vars s = .ok ⟨⟩ s' ∧ Fills table vars s s' := by
  -- each variable is bound in the store that the one before left
  induction vars generalizing s with
  | nil => exact ⟨s, rfl, .nil table s⟩
  | cons p rest ih =>
    obtain ⟨key, v⟩ := p
    have hstep {s₁ : Store} (hone : bindOne table key v s = .ok () s₁) :
        bindEach table ((key, v) :: rest) s = bindEach table rest s₁ := by
      unfold bindEach
      rw [List.forIn_cons, Script.eval_bind, Script.eval_bind, hone]
      rfl
    unfold bindOne at hstep
    cases hv : scalar? v with
    | some value =>
      obtain ⟨s', hrun, hfills⟩ := ih { s with heap := s.heap.setField table (.ofText key) value }
        (by rwa [Script.Heap.size_setField])
      refine ⟨s', ?_, hfills.scalar htable hv⟩
      rw [← hrun]
      apply hstep
      cases v with
      | array items => cases hv
      | _ =>
        simp only [hv]
        rfl
    | none =>
      cases v with
      | array items =>
        obtain ⟨s', hrun, hfills⟩ := ih
          { s with
            heap := (s.heap.newTable (Variables.list items)).2.setField table (.ofText key)
              (.table s.heap.tables.size) }
          (by
            rw [Script.Heap.size_setField, Script.Heap.size_newTable]
            omega)
        refine ⟨s', ?_, hfills.list htable⟩
        rw [← hrun]
        exact hstep rfl
      | null | object fields =>
        obtain ⟨s', hrun, hfills⟩ := ih s htable
        refine ⟨s', ?_, hfills.skip hv (by rintro _ ⟨⟩)⟩
        rw [← hrun]
        exact hstep rfl
      | _ => cases hv

/-! ### What the table has -/

theorem ofText_inj {a b : String} (h : Value.ofText a = .ofText b) : a = b := by
  rw [← Bytes.toText_ofText a, Value.string.inj h, Bytes.toText_ofText]

theorem fill_get_of_ne {t : Table} (h : Table.StringsOnce t.others) {b : Bytes}
    {fs : List (String × Value)} (hb : ∀ f ∈ fs, Value.ofText f.1 ≠ .string b) :
    (fill t fs).get (.string b) = t.get (.string b) := by
  induction fs generalizing t with
  | nil => rfl
  | cons f fs ih =>
    obtain ⟨hf, hfs⟩ := List.forall_mem_cons.mp hb
    have hrest := ih (Table.stringsOnce_set h (.ofText f.1) f.2) hfs
    rw [Table.set_get_string_of_ne h hf] at hrest
    exact hrest

theorem fill_get_of_mem {t : Table} (h : Table.StringsOnce t.others) {fs : List (String × Value)}
    (hnames : (fs.map Prod.fst).Nodup) {name : String} {value : Value} (hmem : (name, value) ∈ fs) :
    (fill t fs).get (.ofText name) = value := by
  induction fs generalizing t with
  | nil => cases hmem
  | cons f fs ih =>
    obtain ⟨hfresh, hrest⟩ := List.nodup_cons.mp hnames
    have honce := Table.stringsOnce_set h (.ofText f.1) f.2
    obtain rfl | hlater := List.mem_cons.mp hmem
    · have hothers : ∀ g ∈ fs, Value.ofText g.1 ≠ .ofText name :=
        fun g hg heq => hfresh (List.mem_map.mpr ⟨g, hg, ofText_inj heq⟩)
      exact (fill_get_of_ne honce hothers).trans (Table.set_get_string_self _ _)
    · exact ih honce hrest hlater

@[simp] theorem fields_keys (next : Nat) (vars : Variables) :
    (fields next vars).map Prod.fst = (vars.filter fun p => isSupported p.2).map Prod.fst := by
  induction vars generalizing next with
  | nil => rfl
  | cons p rest ih =>
    obtain ⟨key, v⟩ := p
    cases v with
    | null | object fs => exact ih next
    | array items => exact congrArg (key :: ·) (ih (next + 1))
    | _ => exact congrArg (key :: ·) (ih next)

private theorem exists_field {vars : Variables} {key : String} {v : Json} (hmem : (key, v) ∈ vars)
    (hv : isSupported v = true) (next : Nat) :
    ∃ value, (key, value) ∈ fields next vars ∧ (Converts v value ∨
      ∃ items n, v = .array items ∧ value = .table (next + n) ∧
        (lists vars)[n]? = some (list items)) := by
  induction vars generalizing next with
  | nil => cases hmem
  | cons p rest ih =>
    obtain rfl | hlater := List.mem_cons.mp hmem
    · cases v with
      | null | object fs => cases hv
      | array items =>
        exact ⟨.table next, List.mem_cons_self, .inr ⟨items, 0, rfl, rfl, rfl⟩⟩
      | _ => exact ⟨_, List.mem_cons_self, .inl (scalar?_eq_some_iff.mp rfl)⟩
    · obtain ⟨key', v'⟩ := p
      cases v' with
      | null | object fs => exact ih hlater next
      | array items' =>
        obtain ⟨value, hfield, hvalue⟩ := ih hlater (next + 1)
        refine ⟨value, List.mem_cons_of_mem _ hfield, hvalue.imp_right ?_⟩
        rintro ⟨items, n, hv, hvalue, hlist⟩
        exact ⟨items, n + 1, hv, by rw [hvalue, Nat.add_right_comm, Nat.add_assoc], hlist⟩
      | _ =>
        obtain ⟨value, hfield, hvalue⟩ := ih hlater next
        exact ⟨value, List.mem_cons_of_mem _ hfield, hvalue⟩

/-! ### What is left out -/

def reportEach (texts : List String) : Eval PUnit :=
  forIn texts PUnit.unit fun text _ => do
    Eval.report .warn text
    pure (.yield ⟨⟩)

@[simp] private theorem reportEach_eq (texts : List String) (s : Store) :
    reportEach texts s =
      .ok ⟨⟩ { s with log := (texts.map (⟨.warn, ·⟩)).reverse ++ s.log } := by
  induction texts generalizing s with
  | nil => rfl
  | cons text rest ih =>
    have hstep : reportEach (text :: rest) s =
        reportEach rest { s with log := ⟨.warn, text⟩ :: s.log } := by
      unfold reportEach
      rw [List.forIn_cons, Script.eval_bind, Script.eval_bind]
      rfl
    rw [hstep, ih, List.map_cons, List.reverse_cons, List.append_assoc, List.singleton_append]

theorem bind_eq (vars : Variables) (s : Store) :
    ∃ s', vars.bind s = .ok (.table s.heap.tables.size) s' ∧
      (∀ r < s.heap.tables.size, s'.heap.table r = s.heap.table r) ∧
      s'.heap.table s.heap.tables.size = fill .empty (fields (s.heap.tables.size + 1) vars) ∧
      (∀ n, s'.heap.table (s.heap.tables.size + 1 + n) = (lists vars)[n]?.getD .empty) ∧
      s'.log = (vars.warnings.map (⟨.warn, ·⟩)).reverse ++ s.log := by
  let made : Store := { s with heap := (s.heap.newTable Table.empty).2 }
  have hsize : made.heap.tables.size = s.heap.tables.size + 1 := Script.Heap.size_newTable _ _
  have htable (r : Nat) : made.heap.table r =
      if r = s.heap.tables.size then .empty else s.heap.table r := Script.Heap.table_newTable _ _ r
  have hroom : s.heap.tables.size < made.heap.tables.size := by omega
  obtain ⟨filled, hrun, hfills⟩ := bindEach_fills vars made hroom
  refine ⟨{ filled with log := (vars.warnings.map (⟨.warn, ·⟩)).reverse ++ filled.log }, ?_, ?_, ?_,
    ?_, ?_⟩
  · have hbind : vars.bind s = (do
        bindEach s.heap.tables.size vars
        reportEach vars.warnings
        return Value.table s.heap.tables.size) made := rfl
    rw [hbind, Script.eval_bind, hrun]
    dsimp only
    rw [Script.eval_bind, reportEach_eq]
    rfl
  · intro r hr
    change filled.heap.table r = _
    rw [hfills.old r (by omega) (by omega), htable, if_neg (by omega)]
  · change filled.heap.table _ = _
    rw [hfills.own, hsize, htable, if_pos rfl]
  · intro n
    change filled.heap.table _ = _
    rw [← hsize, hfills.made]
  · rw [hfills.log]

theorem fill_fields_bound {vars : Variables} (hnames : (vars.map Prod.fst).Nodup) {h : Heap}
    {next : Nat} (hlists : ∀ n, h.table (next + n) = (lists vars)[n]?.getD .empty) {key : String}
    {v : Json} (hmem : (key, v) ∈ vars) (hv : isSupported v = true) :
    Bound h v ((fill .empty (fields next vars)).get (.ofText key)) := by
  have hfields : ((fields next vars).map Prod.fst).Nodup := by
    rw [fields_keys]
    exact hnames.sublist (List.filter_sublist.map _)
  have hempty : Table.StringsOnce Table.empty.others := List.Pairwise.nil
  obtain ⟨value, hfield, hvalue⟩ := exists_field hmem hv next
  rw [fill_get_of_mem hempty hfields hfield]
  obtain hscalar | ⟨items, n, rfl, rfl, hlist⟩ := hvalue
  · exact .scalar hscalar
  · apply Bound.list (forall₂_scalars items)
    rw [hlists n, hlist]
    exact lists_ofListWithin _ (nil_not_mem_scalars items)

theorem Bound.ne_nil {h : Heap} {v : Json} {value : Value} (hbound : Bound h v value) :
    value ≠ .nil := by
  cases hbound with
  | scalar hvalue => exact hvalue.ne_nil
  | list _ _ => exact Value.noConfusion

end Page.Variables

end Pagewright
