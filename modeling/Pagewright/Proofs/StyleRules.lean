import Mathlib.Data.List.Pairwise
import Pagewright.Markup.StyleSheet
import Pagewright.Proofs.TextOrder

/-!
Style sheets and the order of their rules. Blocks are put in order when they are finished texts; that is
the order of their selectors, unless a selector begins with another one and goes on with a blank or less.
-/
namespace Pagewright.Markup.StyleSheet

open Script (Value Table)

def rule? : Value × Value → Option (String × String)
  | (.string selector, rules) => some (selector.toText, (valueText? rules).getD "")
  | _ => none

def blockOf (rule : String × String) : String := block rule.1 rule.2

def blocks (pairs : List (Value × Value)) : List String :=
  (pairs.filterMap block?).mergeSort fun a b => a ≤ b

/-- Where a selector goes on from the end of another one, the block of the other one comes first. -/
def Nested (rules : List (String × String)) : Prop :=
  ∀ a ∈ rules, ∀ b ∈ rules, ∀ more, more ≠ "" → b.1 = a.1 ++ more → block "" a.2 ≤ block more b.2

variable {pairs order : List (Value × Value)} {rules : List (String × String)}

theorem filterMap_block? (pairs : List (Value × Value)) :
    pairs.filterMap block? = (pairs.filterMap rule?).map blockOf := by
  rw [List.map_filterMap]
  congr 1
  funext ⟨k, v⟩
  cases k <;> rfl

@[simp] theorem pairwise_blocks (pairs : List (Value × Value)) :
    (blocks pairs).Pairwise (· ≤ ·) := by
  have hsorted : (blocks pairs).Pairwise fun a b => decide (a ≤ b) = true := by
    apply List.pairwise_mergeSort
    · simpa using fun a b c => String.le_trans
    · simpa using String.le_total
  simpa only [decide_eq_true_eq] using hsorted

theorem blocks_perm (pairs : List (Value × Value)) :
    (blocks pairs).Perm ((pairs.filterMap rule?).map blockOf) := by
  rw [← filterMap_block?]
  exact List.mergeSort_perm _ _

theorem eq_of_perm {l m : List String} (hl : l.Pairwise (· ≤ ·)) (hm : m.Pairwise (· ≤ ·))
    (h : l.Perm m) : l = m :=
  h.eq_of_pairwise (fun _ _ _ _ => String.le_antisymm) hl hm

theorem blocks_order (h : order.Perm pairs) : blocks order = blocks pairs := by
  apply eq_of_perm (pairwise_blocks order) (pairwise_blocks pairs)
  exact (blocks_perm order).trans (((h.filterMap rule?).map blockOf).trans (blocks_perm pairs).symm)

theorem ofPairs_eq (bs : List String) (hbs : bs.Pairwise (· ≤ ·))
    (hperm : bs.Perm ((pairs.filterMap rule?).map blockOf)) :
    ofPairs pairs = "\n".intercalate bs := by
  rw [← eq_of_perm (pairwise_blocks pairs) hbs ((blocks_perm pairs).trans hperm.symm)]
  rfl

/-! ### Selectors and blocks -/

theorem blockOf_eq (rule : String × String) : blockOf rule = rule.1 ++ block "" rule.2 := by
  simp [blockOf, block, String.append_assoc]

@[simp] private theorem append_le_append_iff (common a b : String) :
    common ++ a ≤ common ++ b ↔ a ≤ b := by
  have hlt : common ++ b < common ++ a ↔ b < a := by
    change (common ++ b).toList < (common ++ a).toList ↔ b.toList < a.toList
    rw [String.toList_append, String.toList_append, append_lt_append_iff]
  rw [← String.not_lt, ← String.not_lt, hlt]

theorem blockOf_le_iff {a b : String × String} {more : String} (h : b.1 = a.1 ++ more) :
    blockOf a ≤ blockOf b ↔ block "" a.2 ≤ block more b.2 := by
  have hb : blockOf b = a.1 ++ block more b.2 := by
    simp [blockOf, block, h, String.append_assoc]
  rw [blockOf_eq a, hb, append_le_append_iff]

/-- Selectors that part before either of them ends are in the order of their blocks. -/
theorem append_or_lt {a b : String × String} (h : a.1 < b.1) :
    (∃ more, more ≠ "" ∧ b.1 = a.1 ++ more) ∨ blockOf a < blockOf b := by
  have hchars : a.1.toList < b.1.toList := h
  obtain ⟨c, rest, hb⟩ | ⟨common, c, d, x, y, ha, hb, hcd⟩ := parts_of_lt hchars
  · refine .inl ⟨String.ofList (c :: rest), by simp, ?_⟩
    rw [← String.toList_inj, hb]
    simp
  · right
    change (blockOf a).toList < (blockOf b).toList
    rw [blockOf_eq, blockOf_eq, String.toList_append, String.toList_append, ha, hb]
    simpa using append_cons_lt hcd common (x ++ (block "" a.2).toList) (y ++ (block "" b.2).toList)

private theorem lt_append {a more : String} (h : more ≠ "") : a < a ++ more := by
  change a.toList < (a ++ more).toList
  obtain ⟨c, rest, hmore⟩ :=
    List.exists_cons_of_ne_nil (mt String.toList_eq_nil_iff.mp h)
  rw [String.toList_append, hmore]
  exact lt_append_cons _ _ _

theorem nested_iff : Nested rules ↔
    ∀ a ∈ rules, ∀ b ∈ rules, a.1 < b.1 → blockOf a ≤ blockOf b := by
  constructor
  · intro hnested a ha b hb hlt
    obtain ⟨more, hmore, happend⟩ | hblock := append_or_lt hlt
    · exact (blockOf_le_iff happend).mpr (hnested a ha b hb more hmore happend)
    · exact Std.le_of_lt hblock
  · intro h a ha b hb more hmore happend
    exact (blockOf_le_iff happend).mp (h a ha b hb (happend ▸ lt_append hmore))

private theorem blockOf_le_of_pairwise
    (h : rules.Pairwise fun a b => blockOf a ≤ blockOf b ∧ a.1 ≤ b.1) {a b : String × String}
    (ha : a ∈ rules) (hb : b ∈ rules) (hlt : a.1 < b.1) : blockOf a ≤ blockOf b := by
  -- symmetric, so that it holds of two rules whichever of them stands first
  let R (a b : String × String) : Prop :=
    (a.1 < b.1 → blockOf a ≤ blockOf b) ∧ (b.1 < a.1 → blockOf b ≤ blockOf a)
  have : Std.Symm R := ⟨fun _ _ hab => ⟨hab.2, hab.1⟩⟩
  have hpairs : rules.Pairwise R := by
    apply h.imp
    intro a b hab
    exact ⟨fun _ => hab.1, fun hba => absurd hba (String.not_lt.mpr hab.2)⟩
  have hself : ∀ a ∈ rules, R a a := fun a _ =>
    ⟨fun h => absurd h (String.lt_irrefl _), fun h => absurd h (String.lt_irrefl _)⟩
  exact (hpairs.forall_of_forall hself ha hb).1 hlt

private theorem exists_sorted (rules : List (String × String)) :
    ∃ sorted : List (String × String), sorted.Perm rules ∧
      sorted.Pairwise fun a b => a.1 < b.1 ∨ a.1 = b.1 ∧ blockOf a ≤ blockOf b := by
  let before (a b : String × String) : Bool :=
    decide (a.1 < b.1 ∨ a.1 = b.1 ∧ blockOf a ≤ blockOf b)
  refine ⟨rules.mergeSort before, List.mergeSort_perm _ _, ?_⟩
  have hsorted : (rules.mergeSort before).Pairwise fun a b => before a b = true :=
    List.pairwise_mergeSort (by grind) (by grind) rules
  exact hsorted.imp of_decide_eq_true

private theorem exists_ascending_iff (rules : List (String × String)) {bs : List String}
    (hperm : bs.Perm (rules.map blockOf)) (hbs : bs.Pairwise (· ≤ ·)) :
    (∃ sorted : List (String × String), sorted.Perm rules ∧ sorted.map blockOf = bs ∧
      sorted.Pairwise fun a b => a.1 ≤ b.1) ↔ Nested rules := by
  rw [nested_iff]
  constructor
  · rintro ⟨sorted, hrules, rfl, hselectors⟩ a ha b hb hlt
    exact blockOf_le_of_pairwise ((List.pairwise_map.mp hbs).and hselectors)
      (hrules.mem_iff.mpr ha) (hrules.mem_iff.mpr hb) hlt
  · intro hnested
    obtain ⟨sorted, hrules, hsorted⟩ := exists_sorted rules
    have hblocks : (sorted.map blockOf).Pairwise (· ≤ ·) := by
      apply List.pairwise_map.mpr
      apply hsorted.imp_of_mem
      intro a b ha hb hab
      obtain hlt | ⟨-, hle⟩ := hab
      · exact hnested a (hrules.mem_iff.mp ha) b (hrules.mem_iff.mp hb) hlt
      · exact hle
    refine ⟨sorted, hrules, ?_, ?_⟩
    · exact eq_of_perm hblocks hbs ((hrules.map blockOf).trans hperm.symm)
    · apply hsorted.imp
      intro a b hab
      grind

private theorem nested_of_blank_lt
    (h : ∀ a ∈ rules, ∀ b ∈ rules, ∀ c more, b.1.toList = a.1.toList ++ c :: more → ' ' < c) :
    Nested rules := by
  intro a ha b hb more hmore happend
  obtain ⟨c, rest, hchars⟩ := List.exists_cons_of_ne_nil (mt String.toList_eq_nil_iff.mp hmore)
  have hc := h a ha b hb c rest (by rw [happend, String.toList_append, hchars])
  apply Std.le_of_lt
  change (block "" a.2).toList < (block more b.2).toList
  simp only [block, String.toList_append, hchars]
  exact List.cons_lt_cons_iff.mpr (.inl hc)

/-- The style sheet of a table has one block for each string that is a key, and they stand in the order
of their texts, whatever the order in which the table is traversed. They stand in the order of the
selectors exactly if, where a selector goes on from the end of another one, the rest of its block is not
below the rest of the other one's. -/
theorem render_sorts_blocks (tables : Nat → Table) (r : Nat) (rest : List Value)
    (order : List (Value × Value)) (horder : order.Perm (tables r).pairs) :
    render? tables (.table r :: rest) = some (ofPairs order) ∧
    ∃ bs : List String,
      ofPairs order = "\n".intercalate bs ∧
      bs.Perm ((order.filterMap rule?).map blockOf) ∧
      bs.Pairwise (fun a b => Bytes.ofText a ≤ Bytes.ofText b) ∧
      ((∃ sorted : List (String × String), sorted.Perm (order.filterMap rule?) ∧
          sorted.map blockOf = bs ∧
          sorted.Pairwise fun a b => Bytes.ofText a.1 ≤ Bytes.ofText b.1) ↔
        Nested (order.filterMap rule?)) ∧
      ((∀ a ∈ order.filterMap rule?, ∀ b ∈ order.filterMap rule?, ∀ c more,
          b.1.toList = a.1.toList ++ c :: more → ' ' < c) → Nested (order.filterMap rule?)) := by
  have hsame : ofPairs order = ofPairs (tables r).pairs :=
    congrArg "\n".intercalate (blocks_order horder)
  have hperm := blocks_perm order
  have hsorted := pairwise_blocks order
  refine ⟨by rw [hsame, render?], blocks order, rfl, hperm, ?_, ?_, nested_of_blank_lt⟩
  · simpa only [Bytes.ofText_le_ofText] using hsorted
  · simpa only [Bytes.ofText_le_ofText] using exists_ascending_iff _ hperm hsorted

/-- A class within the paragraphs comes after the paragraphs; a rule that is no text is empty. -/
theorem render_sorts_blocks_class :
    let tables : Nat → Table := fun _ => ⟨#[], [(.ofText "p.note", .ofText "color: red"),
      (.ofText "p", .ofText "margin: 0"), (.ofText ".card", .table 0)], 4, none⟩
    let order := (tables 0).pairs.reverse
    order.Perm (tables 0).pairs ∧ Nested (order.filterMap rule?) ∧
      render? tables [.table 0] = some (ofPairs order) ∧
      ofPairs order = ".card \x7b  \x7d\np \x7b margin: 0 \x7d\np.note \x7b color: red \x7d" := by
  intro tables order
  have horder : order.Perm (tables 0).pairs := List.reverse_perm _
  have hrules : order.filterMap rule? =
      [(".card", ""), ("p", "margin: 0"), ("p.note", "color: red")] := by decide
  obtain ⟨hsame, -, -, -, -, -, -⟩ := render_sorts_blocks tables 0 [] order horder
  refine ⟨horder, ?_, hsame, ?_⟩
  · rw [nested_iff, hrules]
    decide
  · exact ofPairs_eq
      [".card \x7b  \x7d", "p \x7b margin: 0 \x7d", "p.note \x7b color: red \x7d"]
      (by decide) (by decide)

/-- A selector for what is within paragraphs begins with the selector of paragraphs, but its block comes
first. -/
theorem descendant_block_first :
    let tables : Nat → Table := fun _ =>
      ⟨#[], [(.ofText "p", .ofText "x"), (.ofText "p b", .ofText "y")], 2, none⟩
    "p" < "p b" ∧
      render? tables [.table 0] = some "p b \x7b y \x7d\np \x7b x \x7d" ∧
      render? tables [.table 0] ≠ some "p \x7b x \x7d\np b \x7b y \x7d" := by
  intro tables
  have hrender : render? tables [.table 0] = some "p b \x7b y \x7d\np \x7b x \x7d" :=
    congrArg some (ofPairs_eq ["p b \x7b y \x7d", "p \x7b x \x7d"] (by decide) (by decide))
  refine ⟨by decide, hrender, ?_⟩
  rw [hrender]
  decide

end Pagewright.Markup.StyleSheet
