import Pagewright.Proofs.TableEntries

/-!
Tables whose other keys stand in another order. Nothing but a traversal tells them apart: they hold the
same under every key, and what is put into both leaves them alike. Byte strings that are one text keep
their order, so what is written of a table is the same too.
-/
namespace Pagewright.Script.Table

/-- A key as markup shows it: byte strings that are one text are one. -/
def shownKey : Value → Value
  | .string s => Value.ofText s.toText
  | k => k

/-- The entries that are shown under every key are the same, in the same order. -/
def SameByKey (ps qs : List (Value × Value)) : Prop :=
  ∀ k, (ps.filter fun p => shownKey p.1 = k) = qs.filter fun p => shownKey p.1 = k

/-- Two tables are one but for the order of their other keys. -/
structure Reordered (t t' : Table) : Prop where
  array : t'.array = t.array
  others : SameByKey t.others t'.others
  room : t'.room = t.room
  metatable : t'.metatable = t.metatable

variable {t t' : Table} {ps qs rs : List (Value × Value)} {k v : Value}

/-! ### Entries by their keys -/

namespace SameByKey

theorem refl (ps : List (Value × Value)) : SameByKey ps ps := fun _ => rfl

theorem trans (h : SameByKey ps qs) (h' : SameByKey qs rs) : SameByKey ps rs :=
  fun k => (h k).trans (h' k)

theorem append (h : SameByKey ps qs) {ps' qs' : List (Value × Value)} (h' : SameByKey ps' qs') :
    SameByKey (ps ++ ps') (qs ++ qs') := by
  intro k
  rw [List.filter_append, List.filter_append, h k, h' k]

theorem filter (h : SameByKey ps qs) (f : Value × Value → Bool) :
    SameByKey (ps.filter f) (qs.filter f) := by
  intro k
  have hswap (l : List (Value × Value)) : ((l.filter f).filter fun p => shownKey p.1 = k) =
      (l.filter fun p => shownKey p.1 = k).filter f := by
    rw [List.filter_filter, List.filter_filter]
    simp only [Bool.and_comm]
  rw [hswap ps, hswap qs, h k]

theorem perm (h : SameByKey ps qs) : ps.Perm qs := by
  refine List.perm_iff_count.mpr fun p => ?_
  have hcount (l : List (Value × Value)) :
      l.count p = (l.filter fun q => shownKey q.1 = shownKey p.1).count p :=
    (List.count_filter (by simp)).symm
  rw [hcount ps, hcount qs, h (shownKey p.1)]

end SameByKey

@[simp] theorem lookup_filter_shown (k : Value) (ps : List (Value × Value)) :
    lookup k (ps.filter fun p => shownKey p.1 = shownKey k) = lookup k ps := by
  induction ps with
  | nil => rfl
  | cons p rest ih =>
    by_cases hk : p.1 = k
    · simp [lookup, hk]
    · by_cases hshown : shownKey p.1 = shownKey k
      · simpa [List.filter_cons, lookup, hk, hshown] using ih
      · simpa [List.filter_cons, lookup, hk, hshown] using ih

theorem hasOther_eq_any (k : Value) (ps : List (Value × Value)) :
    hasOther k ps = ps.any fun p => p.1 = k := by
  induction ps with
  | nil => rfl
  | cons p rest ih => rw [hasOther, List.any_cons, ih]

theorem SameByKey.lookup (h : SameByKey ps qs) (k : Value) : lookup k ps = lookup k qs := by
  rw [← lookup_filter_shown k ps, ← lookup_filter_shown k qs, h (shownKey k)]

theorem SameByKey.hasOther (h : SameByKey ps qs) (k : Value) : hasOther k ps = hasOther k qs := by
  rw [hasOther_eq_any, hasOther_eq_any, h.perm.any_eq]

theorem filter_replace_self (k v : Value) (ps : List (Value × Value)) :
    ((replace k v ps).filter fun p => shownKey p.1 = shownKey k) =
      replace k v (ps.filter fun p => shownKey p.1 = shownKey k) := by
  induction ps with
  | nil => rfl
  | cons p rest ih =>
    by_cases hk : p.1 = k
    · simp [replace, hk]
    · by_cases hshown : shownKey p.1 = shownKey k
      · simp [replace, hk, hshown, ih]
      · simp [replace, hk, hshown, ih]

theorem filter_replace_of_ne {k' : Value} (hne : k' ≠ shownKey k) (v : Value)
    (ps : List (Value × Value)) :
    ((replace k v ps).filter fun p => shownKey p.1 = k') =
      ps.filter fun p => shownKey p.1 = k' := by
  induction ps with
  | nil => rfl
  | cons p rest ih =>
    by_cases hk : p.1 = k
    · simp [replace, hk, hne.symm]
    · simp [replace, hk, List.filter_cons, ih]

theorem SameByKey.replace (h : SameByKey ps qs) (k v : Value) :
    SameByKey (replace k v ps) (replace k v qs) := by
  intro k'
  by_cases hk : k' = shownKey k
  · subst hk
    rw [filter_replace_self, filter_replace_self, h]
  · rw [filter_replace_of_ne hk, filter_replace_of_ne hk, h k']

private theorem foldl_past {β : Type} {f : β → Value × Value → β} {p : Value × Value}
    (h : ∀ q ∈ ps, ∀ b, f (f b q) p = f (f b p) q) (b : β) :
    f (ps.foldl f b) p = ps.foldl f (f b p) := by
  induction ps generalizing b with
  | nil => rfl
  | cons q rest ih =>
    obtain ⟨hq, hrest⟩ := List.forall_mem_cons.mp h
    rw [List.foldl_cons, List.foldl_cons, ih hrest, hq]

theorem SameByKey.foldl {β : Type} {f : β → Value × Value → β} (h : SameByKey ps qs)
    (hcomm : ∀ p ∈ ps, ∀ q ∈ ps, q.1 ≠ p.1 → ∀ b, f (f b q) p = f (f b p) q) (b : β) :
    ps.foldl f b = qs.foldl f b := by
  induction ps generalizing qs b with
  | nil => rw [h.perm.nil_eq]
  | cons p rest ih =>
    -- the entry comes in the other list too, behind entries under other keys
    have hfirst := (h (shownKey p.1)).symm
    rw [List.filter_cons_of_pos (by simp)] at hfirst
    obtain ⟨before, behind, rfl, hbefore, -, hbehind⟩ := List.filter_eq_cons_iff.mp hfirst
    have hne (q : Value × Value) (hq : q ∈ before) : q.1 ≠ p.1 := fun heq => by
      simpa [heq] using hbefore q hq
    have hrest : SameByKey rest (before ++ behind) := by
      intro k
      have hk := h k
      by_cases heq : shownKey p.1 = k
      · subst heq
        rw [List.filter_append, List.filter_eq_nil_iff.mpr hbefore, hbehind, List.nil_append]
      · simpa [List.filter_cons, heq] using hk
    have hmem (q : Value × Value) (hq : q ∈ before) : q ∈ p :: rest :=
      h.perm.mem_iff.mpr (List.mem_append_left _ hq)
    have hpast : f (before.foldl f b) p = before.foldl f (f b p) :=
      foldl_past (fun q hq => hcomm p List.mem_cons_self q (hmem q hq) (hne q hq)) b
    rw [List.foldl_cons, List.foldl_append, List.foldl_cons, hpast, ← List.foldl_append]
    exact ih hrest (fun p' hp' q' hq' => hcomm p' (List.mem_cons_of_mem _ hp') q'
      (List.mem_cons_of_mem _ hq')) _

/-! ### Reading -/

namespace Reordered

theorem refl (t : Table) : Reordered t t := ⟨rfl, .refl _, rfl, rfl⟩

theorem trans {t'' : Table} (h : Reordered t t') (h' : Reordered t' t'') : Reordered t t'' :=
  ⟨h'.array.trans h.array, h.others.trans h'.others, h'.room.trans h.room,
    h'.metatable.trans h.metatable⟩

theorem position? (h : Reordered t t') (k : Value) : t'.position? k = t.position? k := by
  unfold Table.position?
  rw [h.array]

theorem get (h : Reordered t t') (k : Value) : t'.get k = t.get k := by
  unfold Table.get
  rw [h.position?, h.array, h.others.lookup]

theorem item (h : Reordered t t') (n : Nat) : t'.item n = t.item n := by
  unfold Table.item
  rw [h.array, h.others.lookup]

theorem border (h : Reordered t t') : t'.border = t.border := by
  have hitem : t'.item = t.item := funext h.item
  have hempty : t'.others.isEmpty = t.others.isEmpty := h.others.perm.isEmpty_eq.symm
  unfold Table.border
  simp only [h.array, hitem, hempty]

theorem sequence (h : Reordered t t') : t'.sequence = t.sequence := by
  have hfrom (fuel n : Nat) (out : List Value) :
      t'.sequenceFrom fuel n out = t.sequenceFrom fuel n out := by
    induction fuel generalizing n out with
    | zero => rfl
    | succ fuel ih =>
      unfold sequenceFrom
      simp only [h.item, ih]
  unfold Table.sequence
  rw [h.array, ← h.others.perm.length_eq, hfrom]

end Reordered

/-! ### Putting in -/

private theorem listSize_perm {ns ms : List Nat} (h : ns.Perm ms) : listSize ns = listSize ms := by
  unfold listSize
  simp only [h.length_eq, h.countP_eq]

theorem Reordered.pairs (h : Reordered t t') : SameByKey t.pairs t'.pairs := by
  unfold Table.pairs
  rw [h.array]
  exact (SameByKey.refl _).append (h.others.filter _)

theorem Reordered.append (h : Reordered t t') (k v : Value) :
    Reordered (t.append k v) (t'.append k v) := by
  unfold Table.append
  rw [h.position?]
  split
  · exact ⟨by rw [h.array], h.others, h.room, h.metatable⟩
  · exact ⟨h.array, h.others.append (.refl _), h.room, h.metatable⟩

private theorem setIfInBounds_comm (a : Array Value) {i j : Nat} (hne : i ≠ j) (v v' : Value) :
    (a.setIfInBounds i v).setIfInBounds j v' = (a.setIfInBounds j v').setIfInBounds i v := by
  apply Array.ext_getElem?
  intro n
  simp only [Array.getElem?_setIfInBounds, Array.size_setIfInBounds]
  by_cases hi : i = n
  · have hj : j ≠ n := fun hj => hne (hi.trans hj.symm)
    simp [hi, hj]
  · simp [hi]

theorem Reordered.layout (h : Reordered t t') (k : Value) :
    Reordered (t.layout k) (t'.layout k) := by
  have hsize : listSize (positions (k :: t'.pairs.map (·.1))) =
      listSize (positions (k :: t.pairs.map (·.1))) :=
    listSize_perm (((h.pairs.perm.symm.map _).cons k).filterMap _)
  unfold Table.layout
  simp only [List.partition_eq_filter_filter, hsize]
  constructor
  · refine ((h.pairs.filter _).foldl ?_ _).symm
    rintro ⟨kp, vp⟩ hp ⟨kq, vq⟩ hq hne a
    have hp := (List.mem_filter.mp hp).2
    have hq := (List.mem_filter.mp hq).2
    cases kp with
    | integer i =>
      cases kq with
      | integer j =>
        simp only [Bool.and_eq_true, decide_eq_true_eq] at hp hq
        have hij : i.toInt ≠ j.toInt := fun heq => hne (congrArg Value.integer
          (Int64.toInt_inj.mp heq)).symm
        exact setIfInBounds_comm a (by omega) vq vp
      | _ => cases hq
    | _ => cases hp
  · exact h.pairs.filter _
  · rw [(h.pairs.filter _).perm.length_eq]
  · exact h.metatable

theorem Reordered.set (h : Reordered t t') (k v : Value) : Reordered (t.set k v) (t'.set k v) := by
  unfold Table.set
  rw [h.position?, ← h.others.hasOther, ← h.others.perm.length_eq, h.room]
  split
  · exact ⟨by rw [h.array], h.others, rfl, h.metatable⟩
  · split
    · exact ⟨h.array, h.others.replace k v, rfl, h.metatable⟩
    · split
      · exact h
      · split
        · exact ⟨h.array, h.others.append (.refl _), rfl, h.metatable⟩
        · exact (h.layout k).append k v

theorem Reordered.storeItems (h : Reordered t t') (n : Nat) (vs : List Value) :
    Reordered (t.storeItems n vs) (t'.storeItems n vs) := by
  unfold Table.storeItems
  rw [h.array]
  dsimp only
  split
  · exact ⟨rfl, h.others, h.room, h.metatable⟩
  · exact ⟨rfl, h.others.filter _, h.room, h.metatable⟩

/-! ### Texts as keys -/

structure Dictionary (t : Table) : Prop where
  array : t.array = #[]
  entries : ∀ p ∈ t.others, (∃ s, p.1 = .string s) ∧ p.2 ≠ .nil

@[simp] theorem dictionary_empty : Dictionary empty := ⟨rfl, fun _ hp => absurd hp List.not_mem_nil⟩

namespace Dictionary

variable {a b : Bytes} {w : Value}

theorem layout (h : Dictionary t) (a : Bytes) :
    t.layout (.string a) = { t with room := powerAbove (t.others.length + 1) } := by
  have hpairs : t.pairs = t.others := by
    have hall : t.others.filter (fun p => !p.2.isNil) = t.others := by
      refine List.filter_eq_self.mpr fun p hp => ?_
      have hv := (h.entries p hp).2
      cases hp2 : p.2 <;> first | rfl | exact absurd hp2 hv
    rw [pairs, h.array, hall]
    rfl
  have hpositions : positions (.string a :: t.others.map (·.1)) = [] := by
    refine List.filterMap_eq_nil_iff.mpr fun k hk => ?_
    rcases List.mem_cons.mp hk with rfl | hk
    · rfl
    · obtain ⟨p, hp, rfl⟩ := List.mem_map.mp hk
      obtain ⟨s, hs⟩ := (h.entries p hp).1
      rw [hs]
  have hnone {f : Value × Value → Bool} (hf : ∀ s v, f (.string s, v) = false) :
      t.others.partition f = ([], t.others) := by
    rw [List.partition_eq_filter_filter]
    have hout : ∀ p ∈ t.others, f p = false := by
      rintro ⟨k, v⟩ hp
      obtain ⟨s, rfl⟩ := (h.entries _ hp).1
      exact hf s v
    rw [List.filter_eq_nil_iff.mpr fun p hp => by simp [hout p hp],
      List.filter_eq_self.mpr fun p hp => by simp [hout p hp]]
  unfold Table.layout
  simp only [hpairs, hpositions]
  rw [hnone fun _ _ => rfl]
  cases t
  obtain rfl : _ = #[] := h.array
  rfl

theorem set_new (h : Dictionary t) (hnew : hasOther (.string a) t.others = false) (hv : v ≠ .nil) :
    t.set (.string a) v =
      { t with
        others := t.others ++ [(.string a, v)]
        room := if t.others.length < t.room then t.room else powerAbove (t.others.length + 1) } := by
  have hsome : v.isNil = false := by cases v <;> first | rfl | exact absurd rfl hv
  unfold Table.set
  rw [position?_string]
  dsimp only
  rw [hnew, hsome, if_neg Bool.false_ne_true, if_neg Bool.false_ne_true, h.layout]
  split
  · rfl
  · rfl

theorem set_old (hold : hasOther (.string a) t.others = true) (v : Value) :
    t.set (.string a) v = { t with others := replace (.string a) v t.others } := by
  unfold Table.set
  rw [position?_string]
  exact if_pos hold

theorem set (h : Dictionary t) (a : Bytes) (hv : v ≠ .nil) : Dictionary (t.set (.string a) v) := by
  cases hnew : hasOther (.string a) t.others with
  | true =>
    rw [set_old hnew]
    exact ⟨h.array, replace_all (P := fun k v => (∃ s, k = .string s) ∧ v ≠ .nil) h.entries
      ⟨⟨a, rfl⟩, hv⟩⟩
  | false =>
    rw [h.set_new hnew hv]
    refine ⟨h.array, List.forall_mem_append.mpr ⟨h.entries, ?_⟩⟩
    exact List.forall_mem_singleton.mpr ⟨⟨a, rfl⟩, hv⟩

/-! What is put in under a text shows under no other key. -/

theorem set_room (h : Dictionary t) (hv : v ≠ .nil) :
    (t.set (.string a) v).room =
      if hasOther (.string a) t.others then t.room
      else if t.others.length < t.room then t.room else powerAbove (t.others.length + 1) := by
  cases hnew : hasOther (.string a) t.others with
  | true => rw [set_old hnew, if_pos rfl]
  | false => rw [h.set_new hnew hv, if_neg Bool.false_ne_true]

theorem set_length (h : Dictionary t) (hv : v ≠ .nil) :
    (t.set (.string a) v).others.length =
      if hasOther (.string a) t.others then t.others.length else t.others.length + 1 := by
  cases hnew : hasOther (.string a) t.others with
  | true =>
    rw [set_old hnew, if_pos rfl, ← List.length_map (·.1), replace_keys, List.length_map]
  | false =>
    rw [h.set_new hnew hv, if_neg Bool.false_ne_true, List.length_append]
    rfl

theorem filter_set_of_ne (h : Dictionary t) (hv : v ≠ .nil) (hne : k ≠ shownKey (.string a)) :
    ((t.set (.string a) v).others.filter fun p => shownKey p.1 = k) =
      t.others.filter fun p => shownKey p.1 = k := by
  cases hnew : hasOther (.string a) t.others with
  | true =>
    rw [set_old hnew]
    exact filter_replace_of_ne hne v t.others
  | false =>
    rw [h.set_new hnew hv, List.filter_append]
    simp [hne.symm]

theorem filter_set_self (h : Dictionary t) (hv : v ≠ .nil) :
    ((t.set (.string a) v).others.filter fun p => shownKey p.1 = shownKey (.string a)) =
      if hasOther (.string a) t.others then
        replace (.string a) v (t.others.filter fun p => shownKey p.1 = shownKey (.string a))
      else (t.others.filter fun p => shownKey p.1 = shownKey (.string a)) ++ [(.string a, v)] := by
  cases hnew : hasOther (.string a) t.others with
  | true =>
    rw [set_old hnew, if_pos rfl]
    exact filter_replace_self (.string a) v t.others
  | false =>
    rw [h.set_new hnew hv, if_neg Bool.false_ne_true, List.filter_append]
    simp

theorem hasOther_set_of_ne (h : Dictionary t) (hv : v ≠ .nil)
    (hne : shownKey k ≠ shownKey (.string a)) :
    hasOther k (t.set (.string a) v).others = hasOther k t.others := by
  have hfilter (ps : List (Value × Value)) : hasOther k ps =
      (ps.filter fun p => shownKey p.1 = shownKey k).any fun p => p.1 = k := by
    rw [hasOther_eq_any, List.any_filter]
    congr 1
    funext p
    by_cases hk : p.1 = k <;> simp [hk]
  rw [hfilter, h.filter_set_of_ne hv hne, ← hfilter]

theorem set_comm (h : Dictionary t) (hne : shownKey (.string a) ≠ shownKey (.string b))
    (hv : v ≠ .nil) (hw : w ≠ .nil) :
    Reordered ((t.set (.string a) v).set (.string b) w)
      ((t.set (.string b) w).set (.string a) v) := by
  have ha := h.set a hv
  have hb := h.set b hw
  constructor
  case array => rw [(hb.set a hv).array, (ha.set b hw).array]
  case metatable => simp only [set_metatable]
  case room =>
    rw [hb.set_room hv, ha.set_room hw, h.set_room hv, h.set_room hw, h.set_length hv,
      h.set_length hw, h.hasOther_set_of_ne hw hne, h.hasOther_set_of_ne hv hne.symm]
    cases hasOther (.string a) t.others <;> cases hasOther (.string b) t.others <;> rfl
  case others =>
    intro k
    by_cases hka : k = shownKey (.string a)
    · subst hka
      rw [ha.filter_set_of_ne hw hne, h.filter_set_self hv, hb.filter_set_self hv,
        h.hasOther_set_of_ne hw hne, h.filter_set_of_ne hw hne]
    · by_cases hkb : k = shownKey (.string b)
      · subst hkb
        rw [hb.filter_set_of_ne hv hne.symm, h.filter_set_self hw, ha.filter_set_self hw,
          h.hasOther_set_of_ne hv hne.symm, h.filter_set_of_ne hv hne.symm]
      · rw [ha.filter_set_of_ne hw hkb, hb.filter_set_of_ne hv hka, h.filter_set_of_ne hv hka,
          h.filter_set_of_ne hw hkb]

end Dictionary

end Pagewright.Script.Table
