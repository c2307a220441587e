import Mathlib.Data.List.Induction
import Mathlib.Data.List.Nodup
import Pagewright.Markup.Arguments
import Pagewright.Proofs.TextOrder

/-!
Attributes as a map. Their keys ascend by bytes, so what is written of a table does not show in which
order the table was traversed, unless keys that are different for a script become one text.
-/
namespace Pagewright.Markup.Arguments

open Script (Value Table)

def Ascending (as : List (String × String)) : Prop :=
  as.Pairwise fun a b => Bytes.ofText a.1 < Bytes.ofText b.1

instance (as : List (String × String)) : Decidable (Ascending as) :=
  inferInstanceAs (Decidable (as.Pairwise _))

theorem ascending_iff {as : List (String × String)} :
    Ascending as ↔ as.Pairwise fun a b => a.1 < b.1 := by
  simp only [Ascending, Bytes.ofText_lt_ofText]

/-! ### Putting in and looking up -/

section Maps

variable {key value : String} {as bs : List (String × String)}

theorem mem_insertAttribute {a : String × String} (ha : a ∈ insertAttribute key value as) :
    a = (key, value) ∨ a ∈ as := by
  induction as with
  | nil => exact .inl (List.mem_singleton.mp ha)
  | cons first rest ih =>
    rw [insertAttribute] at ha
    split at ha
    · exact List.mem_cons.mp ha
    · split at ha
      · obtain rfl | hrest := List.mem_cons.mp ha
        · exact .inr List.mem_cons_self
        · exact (ih hrest).imp_right (List.mem_cons_of_mem _)
      · exact (List.mem_cons.mp ha).imp_right (List.mem_cons_of_mem _)

theorem ascending_insertAttribute (h : Ascending as) :
    Ascending (insertAttribute key value as) := by
  rw [ascending_iff] at h ⊢
  induction as with
  | nil => simp [insertAttribute]
  | cons a rest ih =>
    obtain ⟨k, v⟩ := a
    have hrest := List.pairwise_cons.mp h
    rw [insertAttribute]
    split
    · rename_i hlt
      apply List.Pairwise.cons _ h
      intro b hb
      obtain rfl | hb := List.mem_cons.mp hb
      · exact hlt
      · exact String.lt_trans hlt (hrest.1 b hb)
    · split
      · rename_i hlt
        apply List.Pairwise.cons _ (ih hrest.2)
        intro b hb
        obtain rfl | hb := mem_insertAttribute hb
        · exact hlt
        · exact hrest.1 b hb
      · rename_i hnot hnot'
        obtain rfl := String.le_antisymm (String.not_lt.mp hnot) (String.not_lt.mp hnot')
        exact List.pairwise_cons.mpr hrest

theorem lookup_cons_eq {β : Type} (k : String) (a : String × β) (as : List (String × β)) :
    (a :: as).lookup k = if k = a.1 then some a.2 else as.lookup k := by
  rw [List.lookup_cons]
  by_cases hk : k = a.1
  · simp [hk]
  · rw [if_neg hk, beq_false_of_ne hk]

theorem mem_iff_lookup_of_nodup {β : Type} {as : List (String × β)} {b : β}
    (h : (as.map Prod.fst).Nodup) : (key, b) ∈ as ↔ as.lookup key = some b := by
  induction as with
  | nil => simp
  | cons a rest ih =>
    obtain ⟨k, old⟩ := a
    obtain ⟨hk, hrest⟩ := List.nodup_cons.mp h
    rw [List.mem_cons, ih hrest, lookup_cons_eq]
    by_cases heq : key = k
    · subst heq
      have hnone : rest.lookup key ≠ some b := fun hb =>
        hk (List.mem_map.mpr ⟨(key, b), (ih hrest).mpr hb, rfl⟩)
      simp [hnone, eq_comm]
    · simp [heq]

@[simp] theorem lookup_insertAttribute (k : String) :
    (insertAttribute key value as).lookup k = if k = key then some value else as.lookup k := by
  induction as with
  | nil => rw [insertAttribute, lookup_cons_eq]
  | cons a rest ih =>
    obtain ⟨k', v⟩ := a
    rw [insertAttribute]
    split
    · rw [lookup_cons_eq]
    · split
      · rename_i hlt
        have hne : key ≠ k' := by
          rintro rfl
          exact String.lt_irrefl _ hlt
        rw [lookup_cons_eq, ih, lookup_cons_eq]
        by_cases hk : k = key <;> simp [hk, hne]
      · rename_i hnot hnot'
        obtain rfl := String.le_antisymm (String.not_lt.mp hnot) (String.not_lt.mp hnot')
        rw [lookup_cons_eq, lookup_cons_eq]
        by_cases hk : k = k' <;> simp [hk]

private theorem exists_insertAttribute (key : String) (as : List (String × String)) :
    ∃ before behind, ∀ value, insertAttribute key value as = before ++ (key, value) :: behind := by
  induction as with
  | nil => exact ⟨[], [], fun _ => rfl⟩
  | cons a rest ih =>
    obtain ⟨k, v⟩ := a
    simp only [insertAttribute]
    split
    · exact ⟨[], (k, v) :: rest, fun _ => rfl⟩
    · split
      · obtain ⟨before, behind, hplace⟩ := ih
        exact ⟨(k, v) :: before, behind, fun value => by rw [hplace, List.cons_append]⟩
      · exact ⟨[], rest, fun _ => rfl⟩

private theorem mem_keys_iff : key ∈ as.map Prod.fst ↔ as.lookup key ≠ none := by
  induction as with
  | nil => simp
  | cons a rest ih =>
    rw [List.map_cons, List.mem_cons, ih, lookup_cons_eq]
    by_cases hk : key = a.1 <;> simp [hk]

theorem Ascending.keys (h : Ascending as) : (as.map Prod.fst).Pairwise (· < ·) :=
  List.pairwise_map.mpr (ascending_iff.mp h)

theorem mem_iff_lookup (h : Ascending as) : (key, value) ∈ as ↔ as.lookup key = some value :=
  mem_iff_lookup_of_nodup (h.keys.imp fun hlt => String.ne_of_lt hlt)

theorem eq_of_mem_iff {α : Type} {R : α → α → Prop} (hR : ∀ a b, R a b → ¬R b a) {l m : List α}
    (hl : l.Pairwise R) (hm : m.Pairwise R) (h : ∀ a, a ∈ l ↔ a ∈ m) : l = m := by
  have hnodup {l : List α} (hl : l.Pairwise R) : l.Nodup := by
    apply hl.imp
    rintro a _ haa rfl
    exact hR a a haa haa
  apply List.Perm.eq_of_pairwise _ hl hm
  · exact (List.perm_ext_iff_of_nodup (hnodup hl) (hnodup hm)).mpr h
  · exact fun a b _ _ hab hba => absurd hba (hR a b hab)

theorem eq_of_lookup (has : Ascending as) (hbs : Ascending bs)
    (h : ∀ k, as.lookup k = bs.lookup k) : as = bs := by
  apply eq_of_mem_iff _ has hbs
  · intro ⟨k, v⟩
    rw [mem_iff_lookup has, mem_iff_lookup hbs, h]
  · exact fun a b hab => List.lt_asymm hab

private theorem insertAttribute_twice (h : Ascending as) (text : String) :
    insertAttribute key value (insertAttribute key text as) = insertAttribute key value as := by
  apply eq_of_lookup (ascending_insertAttribute (ascending_insertAttribute h))
    (ascending_insertAttribute h)
  intro k
  simp only [lookup_insertAttribute]
  split <;> rfl

/-! ### The text of a tag -/

private theorem join_of_html_eq {content : List String} {e : ElementSpec}
    (h : html ⟨as, content⟩ e = html ⟨bs, content⟩ e) :
    String.join (as.map attributeHtml) = String.join (bs.map attributeHtml) := by
  unfold html ElementSpec.html attributesHtml at h
  split at h
  · simpa [String.append_assoc] using h
  · simpa [String.append_assoc] using h

private theorem html_insertAttribute_inj {content : List String} {e : ElementSpec} {a b : String}
    (h : html ⟨insertAttribute key a as, content⟩ e = html ⟨insertAttribute key b as, content⟩ e) :
    a = b := by
  -- the place of the key does not depend on its value, so what stands around it is the same
  obtain ⟨before, behind, hplace⟩ := exists_insertAttribute key as
  rw [hplace, hplace] at h
  simpa [attributeHtml, String.append_assoc] using join_of_html_eq h

end Maps

/-! ### What the pairs of a table come to -/

theorem attribute?_eq_some_iff {pair : Value × Value} {key text : String} :
    attribute? pair = some (key, text) ↔
      ∃ s, pair.1 = .string s ∧ s.toText = key ∧ valueText? pair.2 = some text := by
  obtain ⟨k, v⟩ := pair
  cases k with
  | string s =>
    simp [attribute?, and_comm]
  | _ => simp [attribute?]

theorem collect_all {P : String × String → Prop} {pairs : List (Value × Value)}
    (h : ∀ pair ∈ pairs, ∀ a, attribute? pair = some a → P a) : ∀ a ∈ collect pairs, P a := by
  refine List.foldlRecOn (motive := fun as => ∀ a ∈ as, P a) _ _ (by simp) ?_
  intro as has given hgiven a ha
  obtain ⟨pair, hpair, hattribute⟩ := List.mem_filterMap.mp hgiven
  obtain rfl | hold := mem_insertAttribute ha
  · exact h pair hpair _ hattribute
  · exact has a hold

@[simp] theorem ascending_collect (pairs : List (Value × Value)) : Ascending (collect pairs) := by
  refine List.foldlRecOn (motive := Ascending) _ _ List.Pairwise.nil ?_
  intro as has given _
  exact ascending_insertAttribute has

theorem collect_concat {pair : Value × Value} {key text : String}
    (h : attribute? pair = some (key, text)) (pairs : List (Value × Value)) :
    collect (pairs ++ [pair]) = insertAttribute key text (collect pairs) := by
  simp [collect, h]

def textFor (key : String) (pair : Value × Value) : Option String :=
  (attribute? pair).bind fun a => if key = a.1 then some a.2 else none

@[simp] theorem textFor_eq_some_iff {key text : String} {pair : Value × Value} :
    textFor key pair = some text ↔ attribute? pair = some (key, text) := by
  unfold textFor
  cases attribute? pair with
  | none => simp
  | some a =>
    obtain ⟨k, v⟩ := a
    by_cases hk : key = k
    · simp [hk]
    · simp [hk, Ne.symm hk]

/-- Of the texts that a key is given, the last one counts. -/
@[simp] theorem lookup_collect (key : String) (pairs : List (Value × Value)) :
    (collect pairs).lookup key = (pairs.filterMap (textFor key)).getLast? := by
  induction pairs using List.reverseRecOn with
  | nil => rfl
  | append_singleton pairs pair ih =>
    have htext : textFor key pair = (attribute? pair).bind fun a =>
        if key = a.1 then some a.2 else none := rfl
    rw [List.filterMap_append]
    cases hattribute : attribute? pair with
    | none =>
      rw [hattribute] at htext
      simpa [collect, hattribute, htext] using ih
    | some a =>
      rw [hattribute, Option.bind_some] at htext
      rw [collect_concat hattribute, lookup_insertAttribute]
      split
      · rename_i hk
        rw [if_pos hk] at htext
        simp [htext]
      · rename_i hk
        rw [if_neg hk] at htext
        simpa [htext] using ih

theorem mem_keys_collect {key : String} {pairs : List (Value × Value)} :
    key ∈ (collect pairs).map Prod.fst ↔
      ∃ pair ∈ pairs, ∃ text, attribute? pair = some (key, text) := by
  rw [mem_keys_iff, lookup_collect, ne_eq, List.getLast?_eq_none_iff, List.filterMap_eq_nil_iff]
  simp [← textFor_eq_some_iff, Option.ne_none_iff_exists']

/-! ### Different orders -/

/-- The pairs that become one attribute give it one text. -/
def Agree (pairs : List (Value × Value)) : Prop :=
  ∀ p ∈ pairs, ∀ q ∈ pairs, ∀ key a b,
    attribute? p = some (key, a) → attribute? q = some (key, b) → a = b

section Orders

variable {pairs order : List (Value × Value)}

theorem collect_eq_of_agree (hagree : Agree pairs) (horder : order.Perm pairs) :
    collect order = collect pairs := by
  apply eq_of_lookup (ascending_collect order) (ascending_collect pairs)
  intro key
  rw [lookup_collect, lookup_collect]
  have htexts := horder.filterMap (textFor key)
  have hone : ∀ a ∈ pairs.filterMap (textFor key), ∀ b ∈ pairs.filterMap (textFor key), a = b := by
    intro a ha b hb
    obtain ⟨p, hp, hpa⟩ := List.mem_filterMap.mp ha
    obtain ⟨q, hq, hqb⟩ := List.mem_filterMap.mp hb
    exact hagree p hp q hq key a b (textFor_eq_some_iff.mp hpa) (textFor_eq_some_iff.mp hqb)
  have heq : order.filterMap (textFor key) = pairs.filterMap (textFor key) := by
    have hany (l : List String) : l.Pairwise fun _ _ => True :=
      List.pairwise_of_forall fun _ _ => trivial
    apply List.Perm.eq_of_pairwise _ (hany _) (hany _) htexts
    exact fun a b ha hb _ _ => hone a (htexts.mem_iff.mp ha) b hb
  rw [heq]

private theorem exists_order_concat {p q : Value × Value} (hp : p ∈ pairs) (hq : q ∈ pairs)
    (hne : q ≠ p) :
    ∃ rest, (rest ++ [p, q]).Perm pairs := by
  have hq' : q ∈ pairs.erase p := (List.mem_erase_of_ne hne).mpr hq
  refine ⟨(pairs.erase p).erase q, List.perm_append_comm.trans ?_⟩
  exact ((List.perm_cons_erase hq').symm.cons p).trans (List.perm_cons_erase hp).symm

theorem agree_of_html_eq {content : List String} {e : ElementSpec}
    (h : ∀ order, order.Perm pairs →
      html ⟨collect order, content⟩ e = html ⟨collect pairs, content⟩ e) : Agree pairs := by
  intro p hp q hq key a b hpa hqb
  by_cases hpq : q = p
  · subst hpq
    rw [hpa] at hqb
    exact congrArg Prod.snd (Option.some.inj hqb)
  · -- two orders that differ in their last two pairs only: of one key, the last text is left
    obtain ⟨rest, hrest⟩ := exists_order_concat hp hq hpq
    have hswap : (rest ++ [q, p]).Perm pairs :=
      ((List.Perm.swap p q []).append_left rest).trans hrest
    have hlast {p q : Value × Value} {a b : String} (hp : attribute? p = some (key, a))
        (hq : attribute? q = some (key, b)) :
        collect (rest ++ [p, q]) = insertAttribute key b (collect rest) := by
      rw [List.append_cons, collect_concat hq, collect_concat hp,
        insertAttribute_twice (ascending_collect rest)]
    have hsame := (h _ hswap).trans (h _ hrest).symm
    rw [hlast hqb hpa, hlast hpa hqb] at hsame
    exact html_insertAttribute_inj hsame

private theorem agree_of_collect_eq
    (h : ∀ order, order.Perm pairs → collect order = collect pairs) :
    Agree pairs := by
  apply @agree_of_html_eq pairs [] default
  intro order horder
  rw [h order horder]

private theorem keys_collect (horder : order.Perm pairs) :
    (collect order).map Prod.fst = (collect pairs).map Prod.fst := by
  apply eq_of_mem_iff _ (ascending_collect order).keys (ascending_collect pairs).keys
  · intro key
    simp only [mem_keys_collect, horder.mem_iff]
  · exact fun k l hkl => String.lt_asymm hkl

private theorem agree_of_texts (hkeys : (pairs.map Prod.fst).Nodup)
    (htexts : ∀ p ∈ pairs, ∀ s, p.1 = .string s → ∃ text, s = Bytes.ofText text) : Agree pairs := by
  intro p hp q hq key a b hpa hqb
  obtain ⟨s, hps, hs, hpv⟩ := attribute?_eq_some_iff.mp hpa
  obtain ⟨s', hqs', hs', hqv⟩ := attribute?_eq_some_iff.mp hqb
  obtain ⟨text, rfl⟩ := htexts p hp s hps
  obtain ⟨text', rfl⟩ := htexts q hq s' hqs'
  rw [Bytes.toText_ofText] at hs hs'
  subst hs hs'
  obtain rfl := List.inj_on_of_nodup_map hkeys hp hq (hps.trans hqs'.symm)
  exact Option.some.inj (hpv.symm.trans hqv)

end Orders

/-- In every order of the pairs the same keys are written, each once and ascending by bytes, and of the
texts that a key is given the last one counts. The attributes are the same in every order exactly if
pairs whose keys are one text give one text, and so is what is written of any element; of a table whose
keys are texts this is true. -/
theorem collect_order_irrelevant_iff (pairs : List (Value × Value)) :
    (∀ order, order.Perm pairs → Ascending (collect order) ∧
      (collect order).map Prod.fst = (collect pairs).map Prod.fst ∧
      ∀ key, (collect order).lookup key = (order.filterMap (textFor key)).getLast?) ∧
    ((∀ order, order.Perm pairs → collect order = collect pairs) ↔ Agree pairs) ∧
    (∀ (content : List String) (e : ElementSpec),
      (∀ order, order.Perm pairs →
        html ⟨collect order, content⟩ e = html ⟨collect pairs, content⟩ e) ↔ Agree pairs) ∧
    ((pairs.map Prod.fst).Nodup →
      (∀ p ∈ pairs, ∀ s, p.1 = .string s → ∃ text, s = Bytes.ofText text) → Agree pairs) := by
  refine ⟨?_, ⟨agree_of_collect_eq, ?_⟩, ?_, agree_of_texts⟩
  · intro order horder
    exact ⟨ascending_collect order, keys_collect horder, fun key => lookup_collect key order⟩
  · intro hagree order horder
    exact collect_eq_of_agree hagree horder
  · intro content e
    refine ⟨agree_of_html_eq, ?_⟩
    intro hagree order horder
    rw [collect_eq_of_agree hagree horder]

theorem collect_order_irrelevant_iff_list :
    let pairs : List (Value × Value) :=
      [(.ofText "id", .integer 7), (.integer 1, .ofText "x"), (.ofText "class", .ofText "a"),
        (.ofText "title", .table 0)]
    pairs.reverse.Perm pairs ∧ Agree pairs ∧
      collect pairs.reverse = [("class", "a"), ("id", "7")] := by
  intro pairs
  have hagree : Agree pairs := by
    apply (collect_order_irrelevant_iff pairs).2.2.2
    · decide
    · intro p hp s hs
      simp only [pairs, List.mem_cons, List.not_mem_nil, or_false] at hp
      rcases hp with rfl | rfl | rfl | rfl
      all_goals cases hs <;> exact ⟨_, rfl⟩
  have horder := (collect_order_irrelevant_iff pairs).2.1.mpr hagree _ (List.reverse_perm pairs)
  refine ⟨List.reverse_perm pairs, hagree, horder.trans ?_⟩
  decide

/-- Two keys that are no texts can become one; then the pair that comes last counts. -/
theorem collect_order_matters :
    let one : Value × Value := (.string [0xfd], .ofText "1")
    let other : Value × Value := (.string [0xff], .ofText "2")
    one.1 ≠ other.1 ∧ [other, one].Perm [one, other] ∧
      collect [one, other] = [("\ufffd", "2")] ∧ collect [other, one] = [("\ufffd", "1")] := by
  refine ⟨by decide, List.Perm.swap .., by decide, by decide⟩

end Pagewright.Markup.Arguments
