import Pagewright.Proofs.AttributeOrder

/-!
Reading attributes back. Nothing in the text of a tag's attributes is escaped, but a key ends at the first
`=` and a value at the first quote, so maps in which these are true ends are read as what they were.
-/
namespace Pagewright.Markup

inductive AttributePlace where
  | between
  | key (k : List Char)
  /-- Behind the `=` of a key. -/
  | assigned (k : List Char)
  | value (k v : List Char)
deriving DecidableEq, Repr

namespace AttributePlace

def passed : AttributePlace → List Char
  | .between => []
  | .key k => ' ' :: k
  | .assigned k => ' ' :: (k ++ ['='])
  | .value k v => ' ' :: (k ++ '=' :: '"' :: v)

def Tidy : AttributePlace → Prop
  | .between => True
  | .key k | .assigned k => '=' ∉ k
  | .value k v => '=' ∉ k ∧ '"' ∉ v

end AttributePlace

structure AttributeReader where
  place : AttributePlace
  read : List (String × String)
deriving DecidableEq, Repr

namespace AttributeReader

def start : AttributeReader := ⟨.between, []⟩

def next (r : AttributeReader) (c : Char) : Option AttributeReader :=
  match r.place with
  | .between => if c = ' ' then some { r with place := .key [] } else none
  | .key k => some { r with place := if c = '=' then .assigned k else .key (k ++ [c]) }
  | .assigned k => if c = '"' then some { r with place := .value k [] } else none
  | .value k v =>
    if c = '"' then some ⟨.between, r.read ++ [(String.ofList k, String.ofList v)]⟩
    else some { r with place := .value k (v ++ [c]) }

end AttributeReader

/-- The attributes of a text: a blank, a key up to the first `=`, a value between the next two quotes,
and so on to the end. -/
def readAttributes (s : String) : Option (List (String × String)) :=
  match s.toList.foldlM AttributeReader.next .start with
  | some ⟨.between, read⟩ => some read
  | _ => none

namespace Arguments

/-- Keys and values end where they seem to. -/
structure Readable (as : List (String × String)) : Prop where
  keys : ∀ a ∈ as, '=' ∉ a.1.toList
  values : ∀ a ∈ as, '"' ∉ a.2.toList

theorem Readable.concat {as : List (String × String)} (has : Readable as) {a : String × String}
    (hkey : '=' ∉ a.1.toList) (hvalue : '"' ∉ a.2.toList) : Readable (as ++ [a]) where
  keys := by
    intro b hb
    obtain hb | hb := List.mem_append.mp hb
    · exact has.keys b hb
    · exact List.mem_singleton.mp hb ▸ hkey
  values := by
    intro b hb
    obtain hb | hb := List.mem_append.mp hb
    · exact has.values b hb
    · exact List.mem_singleton.mp hb ▸ hvalue

@[simp] private theorem attributesHtml_toList (a : Arguments) :
    a.attributesHtml.toList = a.attributes.flatMap fun p => (attributeHtml p).toList := by
  simp [attributesHtml, String.toList_join, List.flatMap_map]

theorem attributeHtml_toList (a : String × String) :
    (attributeHtml a).toList = ' ' :: (a.1.toList ++ '=' :: '"' :: (a.2.toList ++ ['"'])) := by
  simp [attributeHtml]

end Arguments

namespace AttributeReader

open Arguments (Readable attributeHtml attributeHtml_toList)

/-! ### What is written is read -/

section Written

variable (read : List (String × String))

private theorem foldlM_key {cs : List Char} (hcs : '=' ∉ cs) (k : List Char) :
    cs.foldlM next ⟨.key k, read⟩ = some ⟨.key (k ++ cs), read⟩ := by
  induction cs generalizing k with
  | nil => simp
  | cons c cs ih =>
    rw [List.mem_cons, not_or] at hcs
    simpa [next, Ne.symm hcs.1] using ih hcs.2 (k ++ [c])

private theorem foldlM_value {cs : List Char} (hcs : '"' ∉ cs) (k v : List Char) :
    cs.foldlM next ⟨.value k v, read⟩ = some ⟨.value k (v ++ cs), read⟩ := by
  induction cs generalizing v with
  | nil => simp
  | cons c cs ih =>
    rw [List.mem_cons, not_or] at hcs
    simpa [next, Ne.symm hcs.1] using ih hcs.2 (v ++ [c])

private theorem foldlM_attribute {a : String × String} (hkey : '=' ∉ a.1.toList)
    (hvalue : '"' ∉ a.2.toList) :
    (attributeHtml a).toList.foldlM next ⟨.between, read⟩ = some ⟨.between, read ++ [a]⟩ := by
  have hk := foldlM_key read hkey []
  have hv := foldlM_value read hvalue a.1.toList []
  rw [attributeHtml_toList, List.foldlM_cons]
  simp only [next, if_true, Option.bind_eq_bind, Option.bind_some]
  rw [List.foldlM_append, hk]
  simp only [next, List.foldlM_cons, List.nil_append, if_true, Option.bind_eq_bind, Option.bind_some]
  rw [List.foldlM_append, hv]
  simp [next]

theorem foldlM_attributes {as : List (String × String)} (has : Readable as) :
    (as.flatMap fun a => (attributeHtml a).toList).foldlM next ⟨.between, read⟩ =
      some ⟨.between, read ++ as⟩ := by
  induction as generalizing read with
  | nil => simp
  | cons a as ih =>
    have hrest : Readable as :=
      ⟨fun b hb => has.keys b (List.mem_cons_of_mem a hb),
        fun b hb => has.values b (List.mem_cons_of_mem a hb)⟩
    rw [List.flatMap_cons, List.foldlM_append,
      foldlM_attribute read (has.keys a List.mem_cons_self) (has.values a List.mem_cons_self)]
    simpa using ih (read ++ [a]) hrest

end Written

/-! ### What is read was written -/

def passed (r : AttributeReader) : List Char :=
  (r.read.flatMap fun a => (attributeHtml a).toList) ++ r.place.passed

structure Tidy (r : AttributeReader) : Prop where
  read : Readable r.read
  place : r.place.Tidy

@[simp] private theorem tidy_start : start.Tidy := ⟨⟨by simp [start], by simp [start]⟩, trivial⟩

theorem Tidy.next {r r' : AttributeReader} {c : Char} (hr : r.Tidy) (h : r.next c = some r') :
    r'.Tidy ∧ r'.passed = r.passed ++ [c] := by
  obtain ⟨place, read⟩ := r
  obtain ⟨hread, hplace⟩ := hr
  cases place with
  | between =>
    simp only [AttributeReader.next] at h
    split at h
    · obtain rfl := Option.some.inj h
      rename_i hc
      exact ⟨⟨hread, by simp [AttributePlace.Tidy]⟩, by simp [passed, AttributePlace.passed, hc]⟩
    · cases h
  | key k =>
    obtain rfl := Option.some.inj h
    by_cases hc : c = '='
    · refine ⟨⟨hread, ?_⟩, by simp [passed, AttributePlace.passed, hc]⟩
      rwa [if_pos hc]
    · refine ⟨⟨hread, ?_⟩, by simp [passed, AttributePlace.passed, hc]⟩
      simpa [AttributePlace.Tidy, hc, Ne.symm hc] using hplace
  | assigned k =>
    simp only [AttributeReader.next] at h
    split at h
    · obtain rfl := Option.some.inj h
      rename_i hc
      refine ⟨⟨hread, hplace, by simp⟩, by simp [passed, AttributePlace.passed, hc]⟩
    · cases h
  | value k v =>
    simp only [AttributeReader.next] at h
    split at h
    · obtain rfl := Option.some.inj h
      rename_i hc
      refine ⟨⟨hread.concat ?_ ?_, trivial⟩, ?_⟩
      · simpa using hplace.1
      · simpa using hplace.2
      · simp [passed, AttributePlace.passed, attributeHtml_toList, hc]
    · obtain rfl := Option.some.inj h
      rename_i hc
      refine ⟨⟨hread, hplace.1, ?_⟩, by simp [passed, AttributePlace.passed]⟩
      simpa [Ne.symm hc] using hplace.2

theorem Tidy.foldlM {r r' : AttributeReader} {cs : List Char} (hr : r.Tidy)
    (h : cs.foldlM AttributeReader.next r = some r') : r'.Tidy ∧ r'.passed = r.passed ++ cs := by
  induction cs generalizing r with
  | nil =>
    obtain rfl := Option.some.inj h
    simpa using hr
  | cons c cs ih =>
    rw [List.foldlM_cons] at h
    obtain ⟨r₁, hnext, hrest⟩ := Option.bind_eq_some_iff.mp h
    obtain ⟨hr₁, hpassed⟩ := hr.next hnext
    simpa [hpassed] using ih hr₁ hrest

end AttributeReader

namespace Arguments

@[simp] private theorem readAttributes_eq_some_iff {s : String} {as : List (String × String)} :
    readAttributes s = some as ↔ Readable as ∧ attributesHtml ⟨as, []⟩ = s := by
  rw [← String.toList_inj, attributesHtml_toList]
  constructor
  · intro h
    unfold readAttributes at h
    split at h
    · rename_i read hrun
      obtain rfl := Option.some.inj h
      obtain ⟨htidy, hpassed⟩ := AttributeReader.tidy_start.foldlM hrun
      refine ⟨htidy.read, ?_⟩
      simpa [AttributeReader.passed, AttributePlace.passed, AttributeReader.start] using hpassed
    · cases h
  · rintro ⟨has, hs⟩
    have hread := AttributeReader.foldlM_attributes [] has
    simp only at hs
    simp [readAttributes, AttributeReader.start, ← hs, hread]

/-- The attributes of a tag are read back from its text exactly if no key has an `=` and no value a
quote. Maps of which this is true have the same text only if they are the same map. -/
theorem attributes_read_back (a : Arguments) (ha : Ascending a.attributes) :
    (readAttributes a.attributesHtml = some a.attributes ↔ Readable a.attributes) ∧
    (Readable a.attributes → ∀ b : Arguments, Ascending b.attributes → Readable b.attributes →
      (a.attributesHtml = b.attributesHtml ↔
        ∀ key, a.attributes.lookup key = b.attributes.lookup key)) := by
  have hback (c : Arguments) :
      readAttributes c.attributesHtml = some c.attributes ↔ Readable c.attributes := by
    rw [readAttributes_eq_some_iff]
    exact and_iff_left rfl
  refine ⟨hback a, ?_⟩
  intro hread b hb hreadb
  constructor
  · intro hsame key
    have hboth := (hback a).mpr hread
    rw [hsame, (hback b).mpr hreadb] at hboth
    rw [Option.some.inj hboth]
  · intro hlookup
    rw [attributesHtml, attributesHtml, eq_of_lookup ha hb hlookup]

/-- Blanks, an `=` in a value and quotes in a key are no ends. -/
theorem attributes_read_back_odd :
    let a : Arguments := ⟨[("", "x=y z"), ("on \"k\"", "")], ["text"]⟩
    let b : Arguments := ⟨[("", "x=y z on "), ("k", "")], []⟩
    Ascending a.attributes ∧ Readable a.attributes ∧
      readAttributes " =\"x=y z\" on \"k\"=\"\"" = some a.attributes ∧
      a.attributesHtml ≠ b.attributesHtml := by
  intro a b
  have ha : Ascending a.attributes := by decide
  have hb : Ascending b.attributes := by decide
  have hread : Readable a.attributes := ⟨by decide, by decide⟩
  have hreadb : Readable b.attributes := ⟨by decide, by decide⟩
  obtain ⟨hback, hdiffer⟩ := attributes_read_back a ha
  refine ⟨ha, hread, hback.mpr hread, ?_⟩
  rw [ne_eq, hdiffer hread b hb hreadb]
  intro hlookup
  exact absurd (hlookup "k") (by decide)

end Arguments

end Pagewright.Markup
