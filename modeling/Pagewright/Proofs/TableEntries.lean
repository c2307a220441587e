import Mathlib.Algebra.Group.Nat.Defs
import Pagewright.Proofs.TableContents

/-!
A table as the values under its keys. The pairs of a traversal that have a string as their key are what
the table has under strings, and its list is what it has at 1, 2, … up to the first nil.
-/
namespace Pagewright.Script.Table

/-- A table as it comes about, by what scripts and the host do to tables. -/
inductive Built : Table → Prop
  | withRoom (list others : Nat) : Built (.withRoom list others)
  | ofList (vs : List Value) : Built (.ofList vs)
  | set {t : Table} (k v : Value) : Built t → Built (t.set k v)
  | storeItems {t : Table} (n : Nat) (vs : List Value) : Built t → Built (t.storeItems n vs)
  | metatable {t : Table} (m : Option Nat) : Built t → Built { t with metatable := m }

/-- There are positions for all entries of a table, and one behind them. -/
def Fits (t : Table) : Prop := t.array.size + t.others.length + 1 < 2 ^ 63

structure IsSequence (t : Table) (vs : List Value) : Prop where
  values : ∀ i (h : i < vs.length), t.get (.integer (Int64.ofNat (i + 1))) = vs[i]
  not_nil : .nil ∉ vs
  ends : t.get (.integer (Int64.ofNat (vs.length + 1))) = .nil

/-! ### Strings as keys -/

def StringsOnce (ps : List (Value × Value)) : Prop :=
  (ps.map Prod.fst).Pairwise fun k k' => ∀ s, k = .string s → k' ≠ .string s

variable {t : Table} {ps : List (Value × Value)} {k v : Value}

@[simp] theorem replace_keys (k v : Value) (ps : List (Value × Value)) :
    (replace k v ps).map Prod.fst = ps.map Prod.fst := by
  induction ps with
  | nil => rfl
  | cons p rest ih =>
    rw [replace]
    split
    · simp
    · simp [ih]

theorem StringsOnce.filter (h : StringsOnce ps) (p : Value × Value → Bool) :
    StringsOnce (ps.filter p) :=
  h.sublist (List.filter_sublist.map _)

theorem StringsOnce.concat (h : StringsOnce ps)
    (hk : ∀ s, k = .string s → ∀ p ∈ ps, p.1 ≠ .string s) : StringsOnce (ps ++ [(k, v)]) := by
  rw [StringsOnce, List.map_append]
  apply List.pairwise_append.mpr
  refine ⟨h, List.pairwise_singleton _ _, ?_⟩
  intro k' hk' k'' hk'' s hs heq
  obtain ⟨p, hp, rfl⟩ := List.mem_map.mp hk'
  obtain rfl := List.mem_singleton.mp hk''
  exact hk s heq p hp hs

theorem arrayPairs_key {a : Array Value} {p : Value × Value} (hp : p ∈ arrayPairs a) :
    ∃ i, p.1 = .integer i := by
  obtain ⟨⟨v, i⟩, -, hpair⟩ := List.mem_filterMap.mp hp
  dsimp only at hpair
  split at hpair
  · cases hpair
  · rw [← Option.some.inj hpair]
    exact ⟨_, rfl⟩

private theorem stringsOnce_pairs (h : StringsOnce t.others) : StringsOnce t.pairs := by
  have harray : ∀ k ∈ (arrayPairs t.array).map Prod.fst, ∀ s, k ≠ .string s := by
    intro k hk s
    obtain ⟨p, hp, rfl⟩ := List.mem_map.mp hk
    obtain ⟨i, hi⟩ := arrayPairs_key hp
    simp [hi]
  rw [StringsOnce, pairs, List.map_append]
  apply List.pairwise_append.mpr
  refine ⟨?_, h.filter _, ?_⟩
  · exact List.pairwise_of_forall_mem_list fun k hk _ _ s hs => absurd hs (harray k hk s)
  · exact fun k hk _ _ s hs => absurd hs (harray k hk s)

theorem ne_of_hasOther (h : hasOther k ps = false) : ∀ p ∈ ps, p.1 ≠ k := by
  induction ps with
  | nil => simp
  | cons p rest ih =>
    rw [hasOther, Bool.or_eq_false_iff, decide_eq_false_iff_not] at h
    intro q hq
    obtain rfl | hq := List.mem_cons.mp hq
    · exact h.1
    · exact ih h.2 q hq

theorem stringsOnce_layout (h : StringsOnce t.others) (k : Value) :
    StringsOnce (t.layout k).others := by
  unfold layout
  simp only [List.partition_eq_filter_filter]
  exact (stringsOnce_pairs h).filter _

theorem mem_layout_others {p : Value × Value} (hp : p ∈ (t.layout k).others) {s : Bytes}
    (hs : p.1 = .string s) : p ∈ t.others := by
  unfold layout at hp
  simp only [List.partition_eq_filter_filter] at hp
  obtain hp | hp := List.mem_append.mp (List.mem_filter.mp hp).1
  · obtain ⟨i, hi⟩ := arrayPairs_key hp
    rw [hi] at hs
    cases hs
  · exact (List.mem_filter.mp hp).1

theorem stringsOnce_set (h : StringsOnce t.others) (k v : Value) :
    StringsOnce (t.set k v).others := by
  unfold Table.set
  split
  · exact h
  · split
    · rwa [StringsOnce, replace_keys]
    · rename_i hother
      have hnew : ∀ s, k = .string s → ∀ p ∈ t.others, p.1 ≠ .string s := by
        rintro s rfl
        exact ne_of_hasOther (by simpa using hother)
      split
      · exact h
      · split
        · exact h.concat hnew
        · unfold Table.append
          split
          · exact stringsOnce_layout h k
          · apply (stringsOnce_layout h k).concat
            intro s hk p hp hs
            exact hnew s hk p (mem_layout_others hp hs) hs

theorem Built.stringsOnce (h : Built t) : StringsOnce t.others := by
  induction h with
  | withRoom list others => exact List.Pairwise.nil
  | ofList vs => exact List.Pairwise.nil
  | set k v _ ih => exact stringsOnce_set ih k v
  | storeItems n vs _ ih =>
    unfold Table.storeItems
    dsimp only
    split
    · exact ih
    · exact ih.filter _
  | metatable m _ ih => exact ih

theorem lookup_of_mem (h : StringsOnce ps) {s : Bytes} (hmem : (.string s, v) ∈ ps) :
    lookup (.string s) ps = v := by
  induction ps with
  | nil => cases hmem
  | cons p rest ih =>
    obtain ⟨k', v'⟩ := p
    obtain ⟨hp, hrest⟩ := List.pairwise_cons.mp h
    by_cases hk : k' = .string s
    · obtain heq | hlater := List.mem_cons.mp hmem
      · cases heq
        rw [lookup, if_pos rfl]
      · exact absurd rfl (hp _ (List.mem_map_of_mem hlater) s hk)
    · rw [lookup, if_neg hk]
      apply ih hrest
      obtain heq | hlater := List.mem_cons.mp hmem
      · cases heq
        exact absurd rfl hk
      · exact hlater

theorem mem_of_lookup (h : lookup k ps ≠ .nil) : (k, lookup k ps) ∈ ps := by
  induction ps with
  | nil => exact absurd rfl h
  | cons p rest ih =>
    obtain ⟨k', v'⟩ := p
    by_cases hk : k' = k
    · subst hk
      rw [lookup, if_pos rfl]
      exact List.mem_cons_self
    · rw [lookup, if_neg hk] at h ⊢
      exact List.mem_cons_of_mem _ (ih h)

theorem mem_pairs_string (h : StringsOnce t.others) {s : Bytes} :
    (.string s, v) ∈ t.pairs ↔ v ≠ .nil ∧ t.get (.string s) = v := by
  have hnil : v.isNil = false ↔ v ≠ .nil := by cases v <;> simp [Value.isNil]
  have hmem : (.string s, v) ∈ t.pairs ↔ v ≠ .nil ∧ (.string s, v) ∈ t.others := by
    rw [pairs, List.mem_append, List.mem_filter, ← hnil]
    constructor
    · rintro (harray | ⟨hmem, hv⟩)
      · obtain ⟨i, hi⟩ := arrayPairs_key harray
        cases hi
      · exact ⟨by simpa using hv, hmem⟩
    · rintro ⟨hv, hmem⟩
      exact .inr ⟨hmem, by simpa using hv⟩
  rw [hmem]
  apply and_congr_right
  intro hv
  rw [Table.get, position?_string]
  constructor
  · exact lookup_of_mem h
  · rintro rfl
    exact mem_of_lookup hv

/-! ### Putting a value under a string -/

@[simp] private theorem lookup_replace_self (h : hasOther k ps = true) :
    lookup k (replace k v ps) = v := by
  induction ps with
  | nil => cases h
  | cons p rest ih =>
    obtain ⟨k', v'⟩ := p
    by_cases hk : k' = k
    · rw [replace, if_pos hk, lookup, if_pos hk]
    · rw [hasOther, decide_eq_false hk, Bool.false_or] at h
      rw [replace, if_neg hk, lookup, if_neg hk, ih h]

theorem lookup_eq_nil (h : ∀ p ∈ ps, p.1 = k → p.2 = .nil) : lookup k ps = .nil := by
  apply Classical.byContradiction
  intro hne
  exact hne (h _ (mem_of_lookup hne) rfl)

private theorem append_string (s : Bytes) (v : Value) :
    t.append (.string s) v = { t with others := t.others ++ [(.string s, v)] } := rfl

theorem lookup_concat_self (h : ∀ p ∈ ps, p.1 ≠ k) : lookup k (ps ++ [(k, v)]) = v := by
  rw [lookup_append_of_ne h, lookup, if_pos rfl]

@[simp] theorem set_get_string_self (s : Bytes) (v : Value) :
    (t.set (.string s) v).get (.string s) = v := by
  unfold Table.set
  rw [position?_string]
  dsimp only
  split
  · next hother => exact lookup_replace_self hother
  · next hother =>
    have hnew := ne_of_hasOther (Bool.eq_false_iff.mpr hother)
    split
    · next hnil =>
      have hv : v = .nil := by cases v <;> first | rfl | cases hnil
      rw [hv]
      exact lookup_eq_nil fun p hp hk => absurd hk (hnew p hp)
    · split
      · exact lookup_concat_self hnew
      · rw [append_string]
        apply lookup_concat_self
        intro p hp hk
        exact hnew p (mem_layout_others hp hk) hk

private theorem lookup_layout (h : StringsOnce t.others) (k : Value) (s : Bytes) :
    lookup (.string s) (t.layout k).others = lookup (.string s) t.others := by
  by_cases hfound : lookup (.string s) t.others = .nil
  · rw [hfound]
    apply lookup_eq_nil
    rintro ⟨k', v⟩ hp rfl
    rw [← lookup_of_mem h (mem_layout_others hp rfl), hfound]
  · exact layout_get_string k hfound

@[simp] theorem set_get_string_of_ne (h : StringsOnce t.others) {s : Bytes} (hk : k ≠ .string s)
    (v : Value) :
    (t.set k v).get (.string s) = t.get (.string s) := by
  unfold Table.set
  split
  · rfl
  · split
    · exact lookup_replace_of_ne hk v t.others
    · split
      · rfl
      · split
        · exact lookup_append_singleton_of_ne hk v t.others
        · rw [append_get_string hk]
          exact lookup_layout h k s

/-! ### Lists -/

theorem item_eq_get {n : Nat} (hpos : 1 ≤ n) (hn : n < 2 ^ 63) :
    t.item n = t.get (.integer (Int64.ofNat n)) := by
  have hint := Int64.toInt_ofNat_of_lt hn
  unfold item Table.get position?
  simp only [hint]
  by_cases hsize : n ≤ t.array.size
  · have hlt : n - 1 < t.array.size := by omega
    have hrange : 1 ≤ (n : Int) ∧ (n : Int) ≤ t.array.size := by omega
    rw [if_pos hrange]
    simp [hlt]
  · have hle : t.array.size ≤ n - 1 := by omega
    have hrange : ¬(1 ≤ (n : Int) ∧ (n : Int) ≤ t.array.size) := by omega
    rw [if_neg hrange, Array.getElem?_eq_none hle]

private theorem exists_item_nil (h : t.Fits) :
    ∃ n, 1 ≤ n ∧ n ≤ t.array.size + t.others.length + 1 ∧ t.item n = .nil := by
  apply Classical.byContradiction
  intro hnone
  -- the positions behind the array would all be keys, one more than there are entries
  have hitem : ∀ n, 1 ≤ n → n ≤ t.array.size + t.others.length + 1 → t.item n ≠ .nil :=
    fun n hpos hn hnil => hnone ⟨n, hpos, hn, hnil⟩
  let behind := List.range' (t.array.size + 1) (t.others.length + 1)
  let keys := behind.map fun n => Value.integer (Int64.ofNat n)
  have hnodup : keys.Nodup := by
    apply List.pairwise_map.mpr
    apply List.Pairwise.imp_of_mem _ List.pairwise_lt_range'
    intro m n hm hn hlt heq
    have hbounds := h
    simp only [Fits] at hbounds
    have hm := List.mem_range'_1.mp hm
    have hn := List.mem_range'_1.mp hn
    have heq := congrArg Int64.toInt (Value.integer.inj heq)
    rw [Int64.toInt_ofNat_of_lt (by omega), Int64.toInt_ofNat_of_lt (by omega)] at heq
    omega
  have hsubset : keys ⊆ t.others.map Prod.fst := by
    intro k hk
    obtain ⟨n, hn, rfl⟩ := List.mem_map.mp hk
    have hn := List.mem_range'_1.mp hn
    have hfound := hitem n (by omega) (by omega)
    rw [item, Array.getElem?_eq_none (by omega)] at hfound
    exact List.mem_map_of_mem (mem_of_lookup hfound)
  have hlength := hnodup.length_le_of_subset hsubset
  simp only [keys, behind, List.length_map, List.length_range'] at hlength
  omega

theorem sequenceFrom_spec (fuel n : Nat) (out : List Value) :
    ∃ vs, t.sequenceFrom fuel n out = out.reverse ++ vs ∧ .nil ∉ vs ∧
      (∀ i (hi : i < vs.length), t.item (n + i) = vs[i]) ∧
      (t.item (n + vs.length) = .nil ∨ vs.length = fuel) := by
  induction fuel generalizing n out with
  | zero => exact ⟨[], by simp [sequenceFrom]⟩
  | succ fuel ih =>
    rw [sequenceFrom]
    split
    · rename_i hnil
      exact ⟨[], by simp [hnil]⟩
    · rename_i hne
      obtain ⟨vs, hvs, hnot, hitems, hend⟩ := ih (n + 1) (t.item n :: out)
      refine ⟨t.item n :: vs, by simp [hvs], ?_, ?_, ?_⟩
      · rw [List.mem_cons, not_or]
        exact ⟨Ne.symm hne, hnot⟩
      · intro i hi
        cases i with
        | zero => rfl
        | succ i =>
          have hitem := hitems i (by simpa using hi)
          rwa [Nat.add_assoc, Nat.add_comm 1 i] at hitem
      · rw [List.length_cons, ← Nat.add_assoc, Nat.add_right_comm]
        exact hend.imp_right fun hfuel => by omega

theorem isSequence_sequence (h : t.Fits) : t.IsSequence t.sequence := by
  obtain ⟨vs, hvs, hnot, hitems, hend⟩ :=
    t.sequenceFrom_spec (t.array.size + t.others.length) 1 []
  have hsequence : t.sequence = vs := hvs
  have hitem (i : Nat) (hi : i < vs.length) : t.item (i + 1) = vs[i] := by
    rw [Nat.add_comm, hitems i hi]
  obtain ⟨n, hpos, hn, hnil⟩ := exists_item_nil h
  -- the position that holds nil lies behind the values that were read
  have hbehind : vs.length < n := by
    apply Nat.lt_of_not_le
    intro hle
    have hread := hitem (n - 1) (by omega)
    rw [Nat.sub_add_cancel hpos, hnil] at hread
    exact hnot (hread ▸ List.getElem_mem _)
  have hends : t.item (vs.length + 1) = .nil := by
    obtain hend | hfuel := hend
    · rwa [Nat.add_comm]
    · obtain rfl : n = vs.length + 1 := by omega
      exact hnil
  rw [Fits] at h
  rw [hsequence]
  constructor
  · intro i hi
    rw [← item_eq_get (by omega) (by omega), hitem i hi]
  · exact hnot
  · rw [← item_eq_get (by omega) (by omega), hends]

theorem IsSequence.length_le {vs ws : List Value} (hv : t.IsSequence vs) (hw : t.IsSequence ws) :
    ws.length ≤ vs.length := by
  apply Nat.le_of_not_lt
  intro hlt
  have hvalue := hw.values vs.length hlt
  rw [hv.ends] at hvalue
  exact hw.not_nil (hvalue ▸ List.getElem_mem hlt)

theorem IsSequence.eq {vs ws : List Value} (hv : t.IsSequence vs) (hw : t.IsSequence ws) :
    vs = ws := by
  apply List.ext_getElem (Nat.le_antisymm (hw.length_le hv) (hv.length_le hw))
  intro i hi hi'
  rw [← hv.values i hi, ← hw.values i hi']

end Pagewright.Script.Table
