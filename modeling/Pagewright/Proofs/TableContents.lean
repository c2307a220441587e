import Pagewright.Script.Table

/-! What all entries of a table have in common. Operations on tables move and drop entries but never
make one up, so a property of the entries outlasts them. -/
namespace Pagewright.Script.Table

/-- A property of entries that does not tell the positions of a list apart and lets them be empty. -/
structure Uniform (P : Value → Value → Prop) : Prop where
  shift : ∀ {i : Int64} (j : Int64) {v : Value}, P (.integer i) v → P (.integer j) v
  hole : P (.integer 0) .nil

structure All (P : Value → Value → Prop) (t : Table) : Prop where
  list : ∀ v ∈ t.array, P (.integer 0) v
  rest : ∀ p ∈ t.others, P p.1 p.2

variable {P Q : Value → Value → Prop} {t : Table}

theorem All.mono (h : t.All P) (hPQ : ∀ k v, P k v → Q k v) : t.All Q :=
  ⟨fun v hv => hPQ _ v (h.list v hv), fun p hp => hPQ p.1 p.2 (h.rest p hp)⟩

theorem position?_eq_some {k : Value} {i : Nat} (h : t.position? k = some i) :
    ∃ n : Int64, k = .integer n ∧ i < t.array.size := by
  unfold position? at h
  split at h
  · rename_i n
    dsimp only at h
    split at h
    · rename_i hrange
      refine ⟨n, rfl, ?_⟩
      have hi : n.toInt.toNat - 1 = i := Option.some.inj h
      omega
    · cases h
  · cases h

@[simp] theorem position?_string (s : Bytes) : t.position? (.string s) = none := rfl

/-! Reading. -/

private theorem lookup_all {k : Value} {ps : List (Value × Value)} (h : ∀ p ∈ ps, P p.1 p.2) :
    lookup k ps = .nil ∨ P k (lookup k ps) := by
  induction ps with
  | nil => exact Or.inl rfl
  | cons p rest ih =>
      obtain ⟨k', v⟩ := p
      unfold lookup
      split
      · rename_i heq
        exact Or.inr (heq ▸ h (k', v) List.mem_cons_self)
      · exact ih fun p hp => h p (List.mem_cons_of_mem _ hp)

theorem All.get (hP : Uniform P) (h : t.All P) (k : Value) :
    t.get k = .nil ∨ P k (t.get k) := by
  unfold Table.get
  cases hposition : t.position? k with
  | none => exact lookup_all h.rest
  | some i =>
      obtain ⟨n, rfl, hi⟩ := position?_eq_some hposition
      simp only [Array.getD, hi, dif_pos]
      exact Or.inr (hP.shift n (h.list _ (Array.getElem_mem hi)))

private theorem nextPosition_mem {a : Array Value} {fuel i j : Nat} {v : Value}
    (h : nextPosition a fuel i = some (j, v)) : v ∈ a := by
  induction fuel generalizing i with
  | zero => cases h
  | succ fuel ih =>
      unfold nextPosition at h
      split at h
      · exact ih h
      · rename_i v' _ hv'
        obtain ⟨rfl, rfl⟩ := Prod.mk.inj (Option.some.inj h)
        exact Array.mem_of_getElem? hv'
      · cases h

private theorem mem_of_after {k : Value} {ps rest : List (Value × Value)}
    (h : after k ps = some rest) {p : Value × Value} (hp : p ∈ rest) : p ∈ ps := by
  induction ps with
  | nil => cases h
  | cons q qs ih =>
      unfold after at h
      split at h
      · obtain rfl := Option.some.inj h
        exact List.mem_cons_of_mem _ hp
      · exact List.mem_cons_of_mem _ (ih h)

theorem firstPair_all {ps : List (Value × Value)} (h : ∀ p ∈ ps, P p.1 p.2) {k v : Value}
    (hpair : firstPair ps = some (k, v)) : P k v :=
  h _ (List.mem_of_find?_eq_some hpair)

theorem All.nextFrom (hP : Uniform P) (h : t.All P) {i : Nat} {k v : Value}
    (hpair : t.nextFrom i = some (k, v)) : P k v := by
  unfold Table.nextFrom at hpair
  split at hpair
  · rename_i j v' hj
    obtain ⟨rfl, rfl⟩ := Prod.mk.inj (Option.some.inj hpair)
    exact hP.shift _ (h.list _ (nextPosition_mem hj))
  · exact firstPair_all h.rest hpair

theorem All.next? (hP : Uniform P) (h : t.All P) {k k' v : Value}
    (hnext : t.next? k = some (some (k', v))) : P k' v := by
  unfold Table.next? at hnext
  split at hnext
  · exact h.nextFrom hP (Option.some.inj hnext)
  · split at hnext
    · exact h.nextFrom hP (Option.some.inj hnext)
    · obtain ⟨rest, hrest, hpair⟩ := Option.map_eq_some_iff.mp hnext
      exact firstPair_all (fun p hp => h.rest p (mem_of_after hrest hp)) hpair

private theorem arrayPairs_all (hP : Uniform P) {a : Array Value} (h : ∀ v ∈ a, P (.integer 0) v) :
    ∀ p ∈ arrayPairs a, P p.1 p.2 := by
  intro p hp
  obtain ⟨⟨v, i⟩, hv, hpair⟩ := List.mem_filterMap.mp hp
  dsimp only at hpair
  split at hpair
  · cases hpair
  · obtain rfl := Option.some.inj hpair
    exact hP.shift _ (h v (Array.mem_toList_iff.mp (List.fst_mem_of_mem_zipIdx hv)))

theorem All.pairs (hP : Uniform P) (h : t.All P) : ∀ p ∈ t.pairs, P p.1 p.2 := by
  intro p hp
  rcases List.mem_append.mp hp with hp | hp
  · exact arrayPairs_all hP h.list p hp
  · exact h.rest p (List.mem_filter.mp hp).1

/-! Making and changing. -/

@[simp] theorem All.empty : Table.empty.All P :=
  ⟨fun _ hv => absurd hv (Array.not_mem_empty _), fun _ hp => absurd hp List.not_mem_nil⟩

theorem All.withRoom (hP : Uniform P) (list others : Nat) : (Table.withRoom list others).All P :=
  ⟨fun _ hv => (Array.mem_replicate.mp hv).2 ▸ hP.hole, fun _ hp => absurd hp List.not_mem_nil⟩

theorem All.ofList {vs : List Value} (h : ∀ v ∈ vs, P (.integer 0) v) : (Table.ofList vs).All P :=
  ⟨fun v hv => h v (List.mem_toArray.mp hv), fun _ hp => absurd hp List.not_mem_nil⟩

theorem setIfInBounds_all {α : Type} {R : α → Prop} {a : Array α} (h : ∀ v ∈ a, R v) {v : α}
    (hv : R v) (i : Nat) : ∀ v' ∈ a.setIfInBounds i v, R v' := by
  intro v' hv'
  rcases Array.mem_or_eq_of_mem_setIfInBounds hv' with hv' | rfl
  · exact h v' hv'
  · exact hv

theorem replace_all {k v : Value} {ps : List (Value × Value)} (h : ∀ p ∈ ps, P p.1 p.2)
    (hv : P k v) : ∀ p ∈ replace k v ps, P p.1 p.2 := by
  induction ps with
  | nil => exact h
  | cons q rest ih =>
      obtain ⟨k', v'⟩ := q
      obtain ⟨hq, hrest⟩ := List.forall_mem_cons.mp h
      unfold replace
      split
      · rename_i heq
        exact List.forall_mem_cons.mpr ⟨heq ▸ hv, hrest⟩
      · exact List.forall_mem_cons.mpr ⟨hq, ih hrest⟩

theorem All.append (hP : Uniform P) (h : t.All P) {k v : Value} (hv : P k v) :
    (t.append k v).All P := by
  unfold Table.append
  cases hposition : t.position? k with
  | none =>
      refine ⟨h.list, fun p hp => ?_⟩
      rcases List.mem_append.mp hp with hp | hp
      · exact h.rest p hp
      · exact List.mem_singleton.mp hp ▸ hv
  | some i =>
      obtain ⟨n, rfl, -⟩ := position?_eq_some hposition
      exact ⟨setIfInBounds_all h.list (hP.shift 0 hv) i, h.rest⟩

theorem All.layout (hP : Uniform P) (h : t.All P) (k : Value) : (t.layout k).All P := by
  have hlive := h.pairs hP
  unfold Table.layout
  simp only [List.partition_eq_filter_filter]
  constructor
  · refine List.foldlRecOn (motive := fun a : Array Value => ∀ v ∈ a, P (.integer 0) v) _ _ ?_ ?_
    · exact fun v hv => (Array.mem_replicate.mp hv).2 ▸ hP.hole
    · rintro a ha ⟨k', v⟩ hp
      have hv := hlive _ (List.mem_filter.mp hp).1
      dsimp only at hv ⊢
      split
      · exact setIfInBounds_all ha (hP.shift 0 hv) _
      · exact ha
  · exact fun p hp => hlive p (List.mem_filter.mp hp).1

theorem All.set (hP : Uniform P) (h : t.All P) {k v : Value} (hv : P k v) : (t.set k v).All P := by
  unfold Table.set
  split
  · rename_i i hposition
    obtain ⟨n, rfl, -⟩ := position?_eq_some hposition
    exact ⟨setIfInBounds_all h.list (hP.shift 0 hv) i, h.rest⟩
  · split
    · exact ⟨h.list, replace_all h.rest hv⟩
    · split
      · exact h
      · split
        · refine ⟨h.list, fun p hp => ?_⟩
          rcases List.mem_append.mp hp with hp | hp
          · exact h.rest p hp
          · exact List.mem_singleton.mp hp ▸ hv
        · exact (h.layout hP k).append hP hv

theorem All.storeItems (h : t.All P) {vs : List Value} (hvs : ∀ v ∈ vs, P (.integer 0) v)
    (n : Nat) : (t.storeItems n vs).All P := by
  have harray : ∀ v ∈ (vs.zipIdx n).foldl placeItem t.array, P (.integer 0) v := by
    refine List.foldlRecOn (motive := fun a : Array Value => ∀ v ∈ a, P (.integer 0) v)
      _ _ h.list ?_
    rintro a ha ⟨v, i⟩ hp
    have hv := hvs v (List.fst_mem_of_mem_zipIdx hp)
    unfold placeItem
    split
    · exact setIfInBounds_all ha hv i
    · intro v' hv'
      rcases Array.mem_push.mp hv' with hv' | rfl
      · exact ha v' hv'
      · exact hv
  unfold Table.storeItems
  dsimp only
  split
  · exact ⟨harray, h.rest⟩
  · exact ⟨harray, fun p hp => h.rest p (List.mem_filter.mp hp).1⟩

/-! The metatable is no entry. -/

@[simp] theorem append_metatable (k v : Value) : (t.append k v).metatable = t.metatable := by
  unfold Table.append
  split <;> rfl

@[simp] theorem set_metatable (k v : Value) : (t.set k v).metatable = t.metatable := by
  unfold Table.set
  split
  · rfl
  · split
    · rfl
    · split
      · rfl
      · split
        · rfl
        · rw [append_metatable]
          rfl

@[simp] theorem storeItems_metatable (n : Nat) (vs : List Value) :
    (t.storeItems n vs).metatable = t.metatable := by
  unfold Table.storeItems
  dsimp only
  split <;> rfl

/-! What stands under a string stays there when something else is put in. -/

theorem lookup_filter {k : Value} {p : Value × Value → Bool}
    (hp : ∀ v : Value, v.isNil = false → p (k, v) = true) {ps : List (Value × Value)}
    (h : lookup k ps ≠ .nil) : lookup k (ps.filter p) = lookup k ps := by
  induction ps with
  | nil => rfl
  | cons q rest ih =>
      obtain ⟨k', v⟩ := q
      unfold lookup at h
      by_cases hk : k' = k
      · subst hk
        rw [if_pos rfl] at h
        have hv : v.isNil = false := by cases v <;> first | rfl | exact absurd rfl h
        rw [List.filter_cons_of_pos (hp v hv), lookup, lookup, if_pos rfl, if_pos rfl]
      · rw [if_neg hk] at h
        by_cases hq : p (k', v)
        · rw [List.filter_cons_of_pos hq, lookup, lookup, if_neg hk, if_neg hk, ih h]
        · rw [List.filter_cons_of_neg hq, lookup, if_neg hk, ih h]

theorem lookup_append_of_ne {k : Value} {ps : List (Value × Value)} (h : ∀ p ∈ ps, p.1 ≠ k)
    (qs : List (Value × Value)) : lookup k (ps ++ qs) = lookup k qs := by
  induction ps with
  | nil => rfl
  | cons p rest ih =>
      obtain ⟨hp, hrest⟩ := List.forall_mem_cons.mp h
      rw [List.cons_append, lookup, if_neg hp, ih hrest]

@[simp] theorem lookup_append_singleton_of_ne {k k' : Value} (h : k' ≠ k) (v : Value)
    (ps : List (Value × Value)) : lookup k (ps ++ [(k', v)]) = lookup k ps := by
  induction ps with
  | nil => exact if_neg h
  | cons p rest ih =>
      rw [List.cons_append, lookup, lookup, ih]

@[simp] theorem lookup_replace_of_ne {k k' : Value} (h : k' ≠ k) (v : Value)
    (ps : List (Value × Value)) :
    lookup k (replace k' v ps) = lookup k ps := by
  induction ps with
  | nil => rfl
  | cons p rest ih =>
      unfold replace
      split
      · rename_i heq
        rw [lookup, lookup, if_neg (heq ▸ h), if_neg (heq ▸ h)]
      · rw [lookup, lookup, ih]

theorem layout_get_string {s : Bytes} (k : Value) (h : t.get (.string s) ≠ .nil) :
    (t.layout k).get (.string s) = t.get (.string s) := by
  have hlive : lookup (.string s) t.pairs = lookup (.string s) t.others := by
    unfold Table.pairs
    rw [lookup_append_of_ne]
    · exact lookup_filter (fun v hv => by simp [hv]) h
    · intro p hp
      obtain ⟨⟨v, i⟩, -, hpair⟩ := List.mem_filterMap.mp hp
      dsimp only at hpair
      split at hpair
      · cases hpair
      · rw [← Option.some.inj hpair]
        simp
  have hfound : lookup (.string s) t.pairs ≠ .nil := hlive ▸ h
  simp only [Table.get, position?_string, Table.layout, List.partition_eq_filter_filter] at h ⊢
  rw [lookup_filter (fun v hv => rfl) hfound, hlive]

theorem append_get_string {s : Bytes} {k : Value} (hk : k ≠ .string s) (v : Value) :
    (t.append k v).get (.string s) = t.get (.string s) := by
  unfold Table.append
  split
  · rfl
  · exact lookup_append_singleton_of_ne hk v t.others

theorem set_get_string {s : Bytes} {k : Value} (hk : k ≠ .string s) (v : Value)
    (h : t.get (.string s) ≠ .nil) : (t.set k v).get (.string s) = t.get (.string s) := by
  unfold Table.set
  split
  · rfl
  · split
    · exact lookup_replace_of_ne hk v t.others
    · split
      · rfl
      · split
        · exact lookup_append_singleton_of_ne hk v t.others
        · rw [append_get_string hk, layout_get_string _ h]

end Pagewright.Script.Table
