import Pagewright.Proofs.AttributeOrder
import Pagewright.Proofs.TableEntries

/-!
The arguments of a call, parted. Which values of the tables come in is said by what the tables have under
their keys; nothing that an argument adds is lost, and nothing is taken twice.
-/
namespace Pagewright.Markup.Arguments

open Script (Value Table)

/-- The first argument is a table with attributes: another table follows, or a string is a key. -/
def Attributed (tables : Nat → Table) (args : List Value) (r : Nat) (rest : List Value) : Prop :=
  args = .table r :: rest ∧
    ((∃ r', rest.head? = some (.table r')) ∨ ∃ s, (tables r).get (.string s) ≠ .nil)

def Contributes (tables : Nat → Table) (v : Value) (texts : List String) : Prop :=
  match v with
  | .table r => ∃ vs, (tables r).IsSequence vs ∧ texts = vs.filterMap valueText?
  | v => texts = (valueText? v).toList

inductive Contents (tables : Nat → Table) : List Value → List String → Prop
  | nil : Contents tables [] []
  | cons {v : Value} {texts : List String} {rest : List Value} {content : List String} :
      Contributes tables v texts → Contents tables rest content →
        Contents tables (v :: rest) (texts ++ content)

/-- The attributes of a table: what has a text under strings, by the texts of these. Keys of one text
share an attribute. -/
structure AttributesOf (t : Table) (as : List (String × String)) : Prop where
  ascending : Ascending as
  entry : ∀ key text, (key, text) ∈ as →
    ∃ s, s.toText = key ∧ valueText? (t.get (.string s)) = some text
  kept : ∀ s text, valueText? (t.get (.string s)) = some text → s.toText ∈ as.map Prod.fst
  own : ∀ s text, valueText? (t.get (.string s)) = some text →
    (∀ s', valueText? (t.get (.string s')) ≠ none → s'.toText = s.toText → s' = s) →
      (s.toText, text) ∈ as

variable {tables : Nat → Table} {t : Table} {args rest : List Value} {r : Nat}

/-! ### Content -/

theorem contributes_iff (hfits : ∀ r, (tables r).Fits) {v : Value} {texts : List String} :
    Contributes tables v texts ↔ texts = contribution tables v := by
  cases v with
  | table r =>
    have hsequence := (tables r).isSequence_sequence (hfits r)
    constructor
    · rintro ⟨vs, hvs, rfl⟩
      rw [hvs.eq hsequence]
      rfl
    · rintro rfl
      exact ⟨_, hsequence, rfl⟩
  | _ => rfl

theorem contents_iff (hfits : ∀ r, (tables r).Fits) {content : List String} :
    Contents tables args content ↔ content = args.flatMap (contribution tables) := by
  constructor
  · intro h
    induction h with
    | nil => rfl
    | cons hv _ ih => rw [List.flatMap_cons, (contributes_iff hfits).mp hv, ih]
  · rintro rfl
    induction args with
    | nil => exact .nil
    | cons v rest ih =>
      rw [List.flatMap_cons]
      exact .cons ((contributes_iff hfits).mpr rfl) ih

/-! ### Attributes -/

private theorem valueText?_ne_nil {v : Value} {text : String} (h : valueText? v = some text) :
    v ≠ .nil := by
  rintro rfl
  cases h

theorem exists_attribute?_iff (h : Table.StringsOnce t.others) {key text : String} :
    (∃ pair ∈ t.pairs, attribute? pair = some (key, text)) ↔
      ∃ s, s.toText = key ∧ valueText? (t.get (.string s)) = some text := by
  simp only [attribute?_eq_some_iff]
  constructor
  · rintro ⟨⟨k, v⟩, hpair, s, rfl, hs, hv⟩
    obtain ⟨-, rfl⟩ := (Table.mem_pairs_string h).mp hpair
    exact ⟨s, hs, hv⟩
  · rintro ⟨s, hs, hv⟩
    exact ⟨_, (Table.mem_pairs_string h).mpr ⟨valueText?_ne_nil hv, rfl⟩, s, rfl, hs, hv⟩

private theorem attributesOf_collect (h : Table.StringsOnce t.others) :
    AttributesOf t (collect t.pairs) := by
  have hentry : ∀ a ∈ collect t.pairs,
      ∃ s, s.toText = a.1 ∧ valueText? (t.get (.string s)) = some a.2 := by
    apply collect_all
    intro pair hpair a ha
    exact (exists_attribute?_iff h).mp ⟨pair, hpair, ha⟩
  have hkept : ∀ s text, valueText? (t.get (.string s)) = some text →
      s.toText ∈ (collect t.pairs).map Prod.fst := by
    intro s text hs
    obtain ⟨pair, hpair, hattribute⟩ := (exists_attribute?_iff h).mpr ⟨s, rfl, hs⟩
    exact mem_keys_collect.mpr ⟨pair, hpair, text, hattribute⟩
  refine ⟨ascending_collect _, fun key text hmem => hentry _ hmem, hkept, ?_⟩
  intro s text hs honly
  obtain ⟨⟨key, text'⟩, hmem, rfl⟩ := List.mem_map.mp (hkept s text hs)
  obtain ⟨s', hs', htext'⟩ := hentry _ hmem
  obtain rfl := honly s' (by simp [htext']) hs'
  rw [hs] at htext'
  obtain rfl := Option.some.inj htext'
  exact hmem

private theorem hasStringKey_iff (h : Table.StringsOnce t.others) :
    hasStringKey t = true ↔ ∃ s, t.get (.string s) ≠ .nil := by
  rw [hasStringKey, List.any_eq_true]
  constructor
  · rintro ⟨⟨k, v⟩, hpair, hk⟩
    cases k with
    | string s =>
      obtain ⟨hv, rfl⟩ := (Table.mem_pairs_string h).mp hpair
      exact ⟨s, hv⟩
    | _ => cases hk
  · rintro ⟨s, hs⟩
    exact ⟨_, (Table.mem_pairs_string h).mpr ⟨hs, rfl⟩, rfl⟩

theorem holdsAttributes_iff (h : Table.StringsOnce t.others) (rest : List Value) :
    holdsAttributes t rest = true ↔
      (∃ r, rest.head? = some (.table r)) ∨ ∃ s, t.get (.string s) ≠ .nil := by
  rw [← hasStringKey_iff h]
  unfold holdsAttributes
  split
  · simp
  · rename_i hnot
    cases rest with
    | nil => simp
    | cons v rest =>
      have hv : ∀ r, v ≠ .table r := by
        rintro r rfl
        exact hnot r rest rfl
      simp [hv]

/-! ### Parting -/

private theorem classify_attributed (h : Table.StringsOnce (tables r).others)
    (hargs : Attributed tables args r rest) :
    classify tables args = ⟨collect (tables r).pairs, rest.flatMap (contribution tables)⟩ := by
  obtain ⟨rfl, hholds⟩ := hargs
  rw [classify, if_pos ((holdsAttributes_iff h rest).mpr hholds)]

private theorem classify_unattributed (h : ∀ r, Table.StringsOnce (tables r).others)
    (hargs : ∀ r rest, ¬Attributed tables args r rest) :
    classify tables args = ⟨[], args.flatMap (contribution tables)⟩ := by
  unfold classify
  split
  · rename_i r rest
    rw [if_neg]
    intro hholds
    exact hargs r rest ⟨rfl, (holdsAttributes_iff (h r) rest).mp hholds⟩
  · rfl

/-! ### Metatables -/

@[simp] private theorem sequenceFrom_metatable (m : Option Nat) (fuel n : Nat) (out : List Value) :
    Table.sequenceFrom { t with metatable := m } fuel n out = t.sequenceFrom fuel n out := by
  induction fuel generalizing n out with
  | zero => rfl
  | succ fuel ih =>
    have hitem : Table.item { t with metatable := m } n = t.item n := rfl
    rw [Table.sequenceFrom, Table.sequenceFrom, hitem]
    split
    · rfl
    · exact ih _ _

@[simp] private theorem contribution_metatable (m : Nat → Option Nat) :
    contribution (fun r => { tables r with metatable := m r }) = contribution tables := by
  funext v
  cases v with
  | table r =>
    simp only [contribution, Table.sequence]
    rw [sequenceFrom_metatable]
  | _ => rfl

@[simp] private theorem classify_metatable (m : Nat → Option Nat) (args : List Value) :
    classify (fun r => { tables r with metatable := m r }) args = classify tables args := by
  unfold classify
  rw [contribution_metatable]
  rfl

/-! ### One more argument -/

private theorem holdsAttributes_append (hrest : rest ≠ []) (more : List Value) :
    holdsAttributes t (rest ++ more) = holdsAttributes t rest := by
  cases rest with
  | nil => exact absurd rfl hrest
  | cons v rest => cases v <;> rfl

private theorem classify_append (hargs : 2 ≤ args.length ∨ ∃ v, args = [v] ∧ ∀ r, v ≠ .table r)
    (more : List Value) :
    classify tables (args ++ more) =
      ⟨(classify tables args).attributes,
        (classify tables args).content ++ more.flatMap (contribution tables)⟩ := by
  cases args with
  | nil => simp at hargs
  | cons v rest =>
    by_cases hv : ∃ r, v = .table r
    · obtain ⟨r, rfl⟩ := hv
      have hrest : rest ≠ [] := by
        rintro rfl
        simp at hargs
      rw [List.cons_append, classify, classify, holdsAttributes_append hrest]
      split
      · simp
      · simp
    · have hcall (rest : List Value) :
          classify tables (v :: rest) = ⟨[], (v :: rest).flatMap (contribution tables)⟩ := by
        unfold classify
        split
        · rename_i r _ heq
          exact absurd ⟨r, (List.cons.inj heq).1⟩ hv
        · rfl
      rw [List.cons_append, hcall, hcall]
      simp

/-! ### All of it -/

/-- The arguments of a call are conserved. If the first one is a table with attributes, these are what
it has under strings, each by the text of its key, and the content is what the others add; if not,
there are no attributes, and the content is what all arguments add. Metatables play no part. A further
argument leaves the attributes as they are and adds to the content, unless the first argument stood
alone and was a table. -/
theorem classify_conserves (tables : Nat → Table) (hbuilt : ∀ r, (tables r).Built)
    (hfits : ∀ r, (tables r).Fits) (args : List Value) :
    (∀ r rest, Attributed tables args r rest →
      AttributesOf (tables r) (classify tables args).attributes ∧
      ∀ content, Contents tables rest content ↔ content = (classify tables args).content) ∧
    ((∀ r rest, ¬Attributed tables args r rest) →
      (classify tables args).attributes = [] ∧
      ∀ content, Contents tables args content ↔ content = (classify tables args).content) ∧
    (∀ m : Nat → Option Nat,
      classify (fun r => { tables r with metatable := m r }) args = classify tables args) ∧
    ((2 ≤ args.length ∨ ∃ v, args = [v] ∧ ∀ r, v ≠ .table r) →
      ∀ v, ∃ texts, Contributes tables v texts ∧
        classify tables (args ++ [v]) =
          ⟨(classify tables args).attributes, (classify tables args).content ++ texts⟩) := by
  refine ⟨?_, ?_, fun m => classify_metatable m args, ?_⟩
  · intro r rest hargs
    rw [classify_attributed (hbuilt r).stringsOnce hargs]
    exact ⟨attributesOf_collect (hbuilt r).stringsOnce, fun _ => contents_iff hfits⟩
  · intro hargs
    rw [classify_unattributed (fun r => (hbuilt r).stringsOnce) hargs]
    exact ⟨rfl, fun _ => contents_iff hfits⟩
  · intro hargs v
    refine ⟨contribution tables v, (contributes_iff hfits).mpr rfl, ?_⟩
    rw [classify_append hargs, List.flatMap_singleton]

/-- A class, and a list that ends at a hole. -/
theorem classify_conserves_class :
    let tables : Nat → Table := fun r =>
      if r = 0 then (Table.ofList [.ofText "lost"]).set (.ofText "class") (.ofText "x")
      else .ofList [.ofText "a", .table 0, .boolean true, .nil, .ofText "lost"]
    let args : List Value := [.table 0, .table 1, .boolean false]
    (∀ r, (tables r).Built) ∧ (∀ r, (tables r).Fits) ∧
      Attributed tables args 0 [.table 1, .boolean false] ∧
      ("class", "x") ∈ (classify tables args).attributes ∧
      Contents tables [.table 1, .boolean false] ["a", "true", "false"] := by
  intro tables args
  have hbuilt : ∀ r, (tables r).Built := by
    intro r
    simp only [tables]
    split
    · exact .set _ _ (.ofList _)
    · exact .ofList _
  have hfits : ∀ r, (tables r).Fits := by
    intro r
    simp only [tables, Table.Fits]
    split
    · decide
    · decide
  have hargs : Attributed tables args 0 [.table 1, .boolean false] := ⟨rfl, .inl ⟨1, rfl⟩⟩
  obtain ⟨hattributes, hcontents⟩ := (classify_conserves tables hbuilt hfits args).1 _ _ hargs
  refine ⟨hbuilt, hfits, hargs, ?_, (hcontents _).mpr (by decide)⟩
  apply hattributes.own (Bytes.ofText "class") "x" (by decide)
  intro s htext _
  apply Classical.byContradiction
  intro hne
  have hget : (tables 0).get (.string s) = .nil := by
    have hkey : Value.ofText "class" ≠ .string s := fun heq => hne (Value.string.inj heq).symm
    exact if_neg hkey
  rw [hget] at htext
  exact htext rfl

/-- Two strings that are no texts are keys of one attribute, so what the table has under one of them is
no attribute. -/
theorem shared_key_text :
    let t : Table := ((Table.withRoom 0 2).set (.string [0xfd]) (.ofText "1")).set
      (.string [0xff]) (.ofText "2")
    let attributes := (classify (fun _ => t) [.table 0]).attributes
    t.Built ∧ t.Fits ∧
      valueText? (t.get (.string [0xfd])) = some "1" ∧
      valueText? (t.get (.string [0xff])) = some "2" ∧
      attributes.length = 1 ∧
      ¬∀ s text, valueText? (t.get (.string s)) = some text → (s.toText, text) ∈ attributes := by
  refine ⟨.set _ _ (.set _ _ (.withRoom 0 2)), ?_, by decide, by decide, by decide, ?_⟩
  · unfold Table.Fits
    decide
  · intro hall
    have hlost := hall [0xfd] "1" (by decide)
    revert hlost
    decide

end Pagewright.Markup.Arguments
