import Mathlib.Data.String.Basic
import Pagewright.Page.Context
import Pagewright.Proofs.AttributeOrder
import Pagewright.Proofs.BrokenText
import Pagewright.Proofs.NestedCalls
import Pagewright.Proofs.StyleRules

/-!
Strings in calls. A call writes its own markup around the text of a string that it is given; what it
gives is a string again, which other calls write their markup around, and so on. However many there are,
the text in the middle is that of the first string.
-/
namespace Pagewright.Markup

open Script (Value Table Store Callback)

/-- What a call writes around one of its strings. -/
structure Frame where
  before : String
  after : String

namespace Frame

def around (f : Frame) (text : String) : String := f.before ++ text ++ f.after

def surround (frames : List Frame) (text : String) : String := frames.foldr around text

end Frame

/-! ### The parts of an element -/

namespace ElementSpec

def opening (e : ElementSpec) : String :=
  (if e.selfClosing = false ∧ e.doctype = true then doctypeText else "") ++ "<" ++ e.tagName

def closing (e : ElementSpec) : String := "</" ++ e.tagName ++ ">"

def remainder (e : ElementSpec) (content : String) : String :=
  ">" ++ if e.selfClosing then "" else content ++ e.closing

theorem html_eq (e : ElementSpec) (attributes content : String) :
    e.html attributes content = e.opening ++ attributes ++ e.remainder content := by
  unfold opening remainder closing
  cases he : e.selfClosing with
  | true => simp [html_void he, String.append_assoc]
  | false => simp [html_paired he, String.append_assoc]

theorem remainder_paired {e : ElementSpec} (he : e.selfClosing = false) (content : String) :
    e.remainder content = ">" ++ content ++ e.closing := by
  simp [remainder, he, String.append_assoc]

end ElementSpec

namespace Arguments

inductive Splits (tables : Nat → Table) :
    List Value → List (String × String) → List Value → Prop
  | attributed {a : Nat} {rest : List Value} : holdsAttributes (tables a) rest = true →
      Splits tables (.table a :: rest) (collect (tables a).pairs) rest
  | unattributed {args : List Value} :
      (∀ a rest, args = .table a :: rest → holdsAttributes (tables a) rest = false) →
        Splits tables args [] args

variable {tables : Nat → Table} {args rest : List Value} {as : List (String × String)}

theorem Splits.classify (h : Splits tables args as rest) :
    Arguments.classify tables args = ⟨as, rest.flatMap (contribution tables)⟩ := by
  cases h with
  | attributed hattributes => rw [Arguments.classify, if_pos hattributes]
  | unattributed hnone =>
    unfold Arguments.classify
    split
    · next r rest => rw [if_neg (by simp [hnone r rest rfl])]
    · rfl

def written (tables : Nat → Table) (args : List Value) : String :=
  String.join (args.flatMap (contribution tables))

def listed (items : List Value) : String := String.join (items.filterMap valueText?)

def below (key : String) (as : List (String × String)) : List (String × String) :=
  as.filter fun a => a.1 < key

def above (key : String) (as : List (String × String)) : List (String × String) :=
  as.filter fun a => key < a.1

def attributesOf (as : List (String × String)) : String := attributesHtml ⟨as, []⟩

@[simp] theorem written_append (tables : Nat → Table) (xs ys : List Value) :
    written tables (xs ++ ys) = written tables xs ++ written tables ys := by
  rw [written, List.flatMap_append, String.join_append]
  rfl

@[simp] theorem written_string (tables : Nat → Table) (s : Bytes) (rest : List Value) :
    written tables (.string s :: rest) = s.toText ++ written tables rest := by
  rw [written, List.flatMap_cons, String.join_append]
  simp [contribution, valueText?, written]

@[simp] theorem written_table (tables : Nat → Table) (r : Nat) (rest : List Value) :
    written tables (.table r :: rest) = listed (tables r).sequence ++ written tables rest := by
  rw [written, List.flatMap_cons, String.join_append]
  rfl

@[simp] theorem listed_around (xs ys : List Value) (s : Bytes) :
    listed (xs ++ .string s :: ys) = listed xs ++ s.toText ++ listed ys := by
  simp [listed, valueText?, String.append_assoc]

theorem collect_eq {xs ys : List (Value × Value)} {pair : Value × Value} {key text : String}
    (hpair : attribute? pair = some (key, text))
    (hlast : ∀ p ∈ ys, ∀ t, attribute? p ≠ some (key, t)) :
    collect (xs ++ pair :: ys) =
      below key (collect (xs ++ ys)) ++ (key, text) :: above key (collect (xs ++ ys)) := by
  have hascending := ascending_iff.mp (ascending_collect (xs ++ ys))
  have hnone : ys.filterMap (textFor key) = [] := by
    rw [List.filterMap_eq_nil_iff]
    intro p hp
    rw [Option.eq_none_iff_forall_ne_some]
    exact fun t ht => hlast p hp t (textFor_eq_some_iff.mp ht)
  have hlookup (k : String) : (collect (xs ++ pair :: ys)).lookup k =
      if k = key then some text else (collect (xs ++ ys)).lookup k := by
    have hpairText : textFor k pair = if k = key then some text else none := by
      rw [textFor, hpair]
      rfl
    rw [lookup_collect, lookup_collect, List.filterMap_append, List.filterMap_append,
      List.filterMap_cons, hpairText]
    by_cases hk : k = key
    · subst hk
      simp [hnone]
    · simp [hk]
  have hplaced : Ascending
      (below key (collect (xs ++ ys)) ++ (key, text) :: above key (collect (xs ++ ys))) := by
    rw [ascending_iff, List.pairwise_append, List.pairwise_cons]
    refine ⟨hascending.filter _, ⟨?_, hascending.filter _⟩, ?_⟩
    · intro a ha
      simpa using (List.mem_filter.mp ha).2
    · intro a ha b hb
      have hlt : a.1 < key := by simpa using (List.mem_filter.mp ha).2
      obtain rfl | hb := List.mem_cons.mp hb
      · exact hlt
      · exact String.lt_trans hlt (by simpa using (List.mem_filter.mp hb).2)
  apply eq_of_mem_iff (fun a b hab => List.lt_asymm hab) (ascending_collect _) hplaced
  rintro ⟨k, t⟩
  rw [mem_iff_lookup (ascending_collect _), hlookup, List.mem_append, List.mem_cons, below, above,
    List.mem_filter, List.mem_filter, mem_iff_lookup (ascending_collect _)]
  by_cases hk : k = key
  · subst hk
    simp [eq_comm]
  · have hsides : k < key ∨ key < k := by
      by_contra hneither
      rw [not_or] at hneither
      exact hk (String.le_antisymm (String.not_lt.mp hneither.2) (String.not_lt.mp hneither.1))
    rcases hsides with hlt | hlt <;> simp [hk, hlt] <;> tauto

theorem attributesOf_place (before behind : List (String × String)) (key text : String) :
    attributesOf (before ++ (key, text) :: behind) =
      attributesOf before ++ " " ++ key ++ "=\"" ++ text ++ "\"" ++ attributesOf behind := by
  simp [attributesOf, attributesHtml, attributeHtml, String.append_assoc]

end Arguments

namespace StyleSheet

private theorem intercalate_place (smaller greater : List String) (b : String) :
    "\n".intercalate (smaller ++ b :: greater) =
      String.join (smaller.map (· ++ "\n")) ++ b ++ String.join (greater.map ("\n" ++ ·)) := by
  induction smaller with
  | nil =>
    induction greater generalizing b with
    | nil => simp
    | cons c greater ih =>
      simp only [List.nil_append] at ih ⊢
      rw [String.intercalate_cons_cons, ih]
      simp [String.append_assoc]
  | cons c smaller ih =>
    have hcons : "\n".intercalate (c :: (smaller ++ b :: greater)) =
        c ++ "\n" ++ "\n".intercalate (smaller ++ b :: greater) := by
      cases smaller <;> exact String.intercalate_cons_cons
    rw [List.cons_append, hcons, ih]
    simp [String.append_assoc]

theorem ofPairs_place {xs ys : List (Value × Value)} {pair : Value × Value} {b : String}
    {smaller greater : List String} (hpair : block? pair = some b)
    (hothers : (smaller ++ greater).Perm ((xs ++ ys).filterMap block?))
    (hsorted : (smaller ++ b :: greater).Pairwise (· ≤ ·)) :
    ofPairs (xs ++ pair :: ys) =
      String.join (smaller.map (· ++ "\n")) ++ b ++ String.join (greater.map ("\n" ++ ·)) := by
  rw [← intercalate_place]
  apply ofPairs_eq _ hsorted
  rw [← filterMap_block?, List.filterMap_append, List.filterMap_cons, hpair]
  rw [List.filterMap_append] at hothers
  exact List.perm_middle.trans ((hothers.cons b).trans List.perm_middle.symm)

end StyleSheet

/-! ### What stands around a string -/

open Arguments StyleSheet in
/-- A call with a string among what it writes, and what it writes around this string: of an element, the
string is part of the content, as an argument or in a list, or an attribute, or the body as it stands;
of a style sheet, it is the sheet, or part of a block. -/
inductive Shows (tables : Nat → Table) (s : Bytes) : Binding → List Value → Frame → Prop
  | argument {e : ElementSpec} {args before after : List Value} {as : List (String × String)} :
      e.selfClosing = false → ¬e.TakesBody args →
      Splits tables args as (before ++ .string s :: after) →
        Shows tables s (.element e) args
          ⟨e.opening ++ attributesOf as ++ ">" ++ written tables before,
            written tables after ++ e.closing⟩
  | item {e : ElementSpec} {args before after xs ys : List Value} {as : List (String × String)}
      {r : Nat} : e.selfClosing = false →
      Splits tables args as (before ++ .table r :: after) →
      (tables r).sequence = xs ++ .string s :: ys →
        Shows tables s (.element e) args
          ⟨e.opening ++ attributesOf as ++ ">" ++ written tables before ++ listed xs,
            listed ys ++ written tables after ++ e.closing⟩
  | attributeValue {e : ElementSpec} {a : Nat} {rest : List Value} {key : Bytes}
      {xs ys : List (Value × Value)} : holdsAttributes (tables a) rest = true →
      (tables a).pairs = xs ++ (.string key, .string s) :: ys →
      (∀ p ∈ ys, ∀ t, attribute? p ≠ some (key.toText, t)) →
        Shows tables s (.element e) (.table a :: rest)
          ⟨e.opening ++ attributesOf (below key.toText (collect (xs ++ ys))) ++ " " ++ key.toText ++
              "=\"",
            "\"" ++ attributesOf (above key.toText (collect (xs ++ ys))) ++
              e.remainder (written tables rest)⟩
  | attributeKey {e : ElementSpec} {a : Nat} {rest : List Value} {value : Value} {text : String}
      {xs ys : List (Value × Value)} : holdsAttributes (tables a) rest = true →
      (tables a).pairs = xs ++ (.string s, value) :: ys → valueText? value = some text →
      (∀ p ∈ ys, ∀ t, attribute? p ≠ some (s.toText, t)) →
        Shows tables s (.element e) (.table a :: rest)
          ⟨e.opening ++ attributesOf (below s.toText (collect (xs ++ ys))) ++ " ",
            "=\"" ++ text ++ "\"" ++ attributesOf (above s.toText (collect (xs ++ ys))) ++
              e.remainder (written tables rest)⟩
  | body {e : ElementSpec} : e.rawBody = true →
      Shows tables s (.element e) [.string s] ⟨"<" ++ e.tagName ++ ">", e.closing⟩
  | sheet {rest : List Value} : Shows tables s .styleSheet (.string s :: rest) ⟨"", ""⟩
  | declarations {r : Nat} {rest : List Value} {selector : Bytes} {xs ys : List (Value × Value)}
      {smaller greater : List String} :
      (tables r).pairs = xs ++ (.string selector, .string s) :: ys →
      (smaller ++ greater).Perm ((xs ++ ys).filterMap block?) →
      (smaller ++ block selector.toText s.toText :: greater).Pairwise (· ≤ ·) →
        Shows tables s .styleSheet (.table r :: rest)
          ⟨String.join (smaller.map (· ++ "\n")) ++ selector.toText ++ " \x7b ",
            " \x7d" ++ String.join (greater.map ("\n" ++ ·))⟩
  | selector {r : Nat} {rest : List Value} {rules : Value} {xs ys : List (Value × Value)}
      {smaller greater : List String} :
      (tables r).pairs = xs ++ (.string s, rules) :: ys →
      (smaller ++ greater).Perm ((xs ++ ys).filterMap block?) →
      (smaller ++ block s.toText ((valueText? rules).getD "") :: greater).Pairwise (· ≤ ·) →
        Shows tables s .styleSheet (.table r :: rest)
          ⟨String.join (smaller.map (· ++ "\n")),
            " \x7b " ++ (valueText? rules).getD "" ++ " \x7d" ++
              String.join (greater.map ("\n" ++ ·))⟩

def Binding.markup? (tables : Nat → Table) (args : List Value) : Binding → Option String
  | .element e => some (e.render tables args)
  | .styleSheet => StyleSheet.render? tables args
  | .custom _ => none

section Frames

variable {tables : Nat → Table} {s : Bytes} {args : List Value} {b : Binding} {f : Frame}

theorem ElementSpec.render_splits {e : ElementSpec} {as : List (String × String)}
    {rest : List Value} (h : Arguments.Splits tables args as rest) (hargs : args ≠ [])
    (hbody : ¬e.TakesBody args) :
    e.render tables args =
      e.opening ++ Arguments.attributesOf as ++ e.remainder (Arguments.written tables rest) := by
  rw [render_of_not_body e tables hargs hbody, Arguments.html, h.classify, html_eq]
  rfl

theorem ElementSpec.not_takesBody_of_table {e : ElementSpec} {r : Nat} (h : .table r ∈ args) :
    ¬e.TakesBody args := by
  rintro ⟨-, body, rfl⟩
  cases List.mem_singleton.mp h

theorem Arguments.Splits.mem {as : List (String × String)} {rest : List Value}
    (h : Splits tables args as rest) {v : Value} (hv : v ∈ rest) : v ∈ args := by
  cases h with
  | attributed _ => exact List.mem_cons_of_mem _ hv
  | unattributed _ => exact hv

theorem Shows.markup (h : Shows tables s b args f) :
    b.markup? tables args = some (f.around s.toText) := by
  cases h with
  | @argument e _ before after as hpaired hbody hsplits =>
    have hmem : .string s ∈ args := hsplits.mem (by simp)
    rw [Binding.markup?, ElementSpec.render_splits hsplits (List.ne_nil_of_mem hmem) hbody,
      e.remainder_paired hpaired, Arguments.written_append, Arguments.written_string]
    simp [Frame.around, String.append_assoc]
  | @item e _ before after xs ys as r hpaired hsplits hsequence =>
    have hmem : .table r ∈ args := hsplits.mem (by simp)
    rw [Binding.markup?, ElementSpec.render_splits hsplits (List.ne_nil_of_mem hmem)
      (ElementSpec.not_takesBody_of_table hmem), e.remainder_paired hpaired,
      Arguments.written_append, Arguments.written_table, hsequence, Arguments.listed_around]
    simp [Frame.around, String.append_assoc]
  | @attributeValue e a rest key xs ys hattributes hpairs hlast =>
    have hmem : .table a ∈ (.table a :: rest : List Value) := List.mem_cons_self
    have hpair : Arguments.attribute? (.string key, .string s) = some (key.toText, s.toText) := rfl
    rw [Binding.markup?, ElementSpec.render_splits (.attributed hattributes)
      (List.cons_ne_nil _ _) (ElementSpec.not_takesBody_of_table hmem), hpairs,
      Arguments.collect_eq hpair hlast, Arguments.attributesOf_place]
    simp [Frame.around, String.append_assoc]
  | @attributeKey e a rest value text xs ys hattributes hpairs hvalue hlast =>
    have hmem : .table a ∈ (.table a :: rest : List Value) := List.mem_cons_self
    have hpair : Arguments.attribute? (.string s, value) = some (s.toText, text) := by
      rw [Arguments.attribute?, hvalue]
      rfl
    rw [Binding.markup?, ElementSpec.render_splits (.attributed hattributes)
      (List.cons_ne_nil _ _) (ElementSpec.not_takesBody_of_table hmem), hpairs,
      Arguments.collect_eq hpair hlast, Arguments.attributesOf_place]
    simp [Frame.around, String.append_assoc]
  | body hraw =>
    rw [Binding.markup?, ElementSpec.render_body tables hraw]
    simp [Frame.around, ElementSpec.closing, String.append_assoc]
  | sheet =>
    simp [Binding.markup?, StyleSheet.render?, valueText?, Frame.around]
  | declarations hpairs hothers hsorted =>
    rw [Binding.markup?, StyleSheet.render?, hpairs, StyleSheet.ofPairs_place rfl hothers hsorted]
    simp [Frame.around, StyleSheet.block, String.append_assoc]
  | selector hpairs hothers hsorted =>
    rw [Binding.markup?, StyleSheet.render?, hpairs, StyleSheet.ofPairs_place rfl hothers hsorted]
    simp [Frame.around, StyleSheet.block, String.append_assoc]

theorem Binding.call_of_markup {store : Store} {text : String}
    (h : b.markup? store.heap.table args = some text) (callback : Callback) (name : String) :
    b.call callback name args store = .ok (.ofText text) store := by
  cases b with
  | element e =>
    obtain rfl := Option.some.inj h
    rfl
  | custom loader => cases h
  | styleSheet =>
    have hcall : Binding.styleSheet.call callback name args store =
      .ok (((StyleSheet.render? store.heap.table args).map Value.ofText).getD .nil) store := rfl
    rw [hcall, show StyleSheet.render? store.heap.table args = some text from h]
    rfl

end Frames

/-- The values that a string becomes part of: itself, and what any number of calls give one after the
other, each writing around what the one before gave. The frames are those of the calls, the outermost
first. -/
inductive Passes (s : Bytes) : List Frame → Value → Prop
  | string : Passes s [] (.string s)
  | call {frames : List Frame} {f : Frame} {t : Bytes} {callback : Callback} {name : String}
      {b : Binding} {args : List Value} {store store' : Store} {v : Value} :
      Passes s frames (.string t) → Shows store.heap.table t b args f →
      b.call callback name args store = .ok v store' → Passes s (f :: frames) v

theorem Passes.text {s : Bytes} {frames : List Frame} {v : Value} (h : Passes s frames v) :
    ∃ t : Bytes, v = .string t ∧ t.toText = Frame.surround frames s.toText := by
  induction h with
  | string => exact ⟨s, rfl, rfl⟩
  | @call _ _ _ callback name _ _ _ _ _ _ hshows hcall ih =>
    obtain ⟨_, ht, htext⟩ := ih
    cases ht
    have hresult := Binding.call_of_markup hshows.markup callback name
    rw [htext] at hresult
    cases hresult.symm.trans hcall
    exact ⟨_, rfl, Bytes.toText_ofText _⟩

/-- Strings are decoded once. The text of a byte string is UTF-8, is the byte string itself exactly if
that is UTF-8, and is read as itself from then on: each character and each broken part of the byte string
is one character of it, also next to other texts. Whatever calls a string is passed through, they succeed,
and in what they give, which is what a page would be, its text stands within what each of them writes
around it. -/
theorem text_kept_through_calls (s : Bytes) :
    Utf8.valid (Bytes.ofText s.toText) = true ∧
    (Bytes.ofText s.toText = s ↔ Utf8.IsEncoding s) ∧
    (Bytes.ofText s.toText).toText = s.toText ∧
    (∃ ps, Utf8.Parted ps s) ∧
    (∀ ps, Utf8.Parted ps s → s.toText = String.ofList (ps.map Utf8.Part.shown)) ∧
    (∀ before after : String,
      (Bytes.ofText before ++ s ++ Bytes.ofText after).toText = before ++ s.toText ++ after) ∧
    ∀ frames v, Passes s frames v →
      valueText? v = some (Frame.surround frames s.toText) ∧
      Page.Context.pageText v = .ok (Frame.surround frames s.toText) ∧
      ∃ t, v = .string t ∧ ∀ callback name b args store f, Shows store.heap.table t b args f →
        b.call callback name args store =
          .ok (.ofText (Frame.surround (f :: frames) s.toText)) store := by
  refine ⟨Utf8.valid_iff.mpr ⟨_, rfl⟩, Utf8.ofText_toText_iff, Bytes.toText_ofText _,
    Utf8.exists_parted s, fun ps hps => hps.toText, fun before after => Utf8.toText_between _ _ s, ?_⟩
  intro frames v hpasses
  obtain ⟨t, rfl, htext⟩ := hpasses.text
  have hvalue : valueText? (.string t) = some (Frame.surround frames s.toText) :=
    congrArg some htext
  refine ⟨hvalue, ?_, t, rfl, fun callback name b args store f hshows => ?_⟩
  · rw [Page.Context.pageText, hvalue]
  · have hcall := Binding.call_of_markup hshows.markup callback name
    rwa [htext] at hcall

/-- A byte that is no UTF-8, in the list of a paragraph. -/
example :
    let tables : Nat → Table := fun _ => .ofList [.string [0x61, 0xff]]
    (ElementSpec.ofName "P" false).render tables [.table 0] = "<p>a\ufffd</p>" := by
  decide +kernel

end Pagewright.Markup
