import Pagewright.Proofs.AttributeOrder
import Pagewright.Proofs.ElementCalls
import Pagewright.Proofs.TagReader
import Pagewright.Proofs.TextBytes

/-!
Calls of elements within each other. What the outermost call gives is read back: the tags are nested
as the calls were, and the texts stand between them.
-/
namespace Pagewright.Markup

open Script (Value Table)

inductive Tree where
  | text (s : Bytes)
  /-- A call with a table of attributes and a table of what the children give. -/
  | node (spec : ElementSpec) (attributes : Table) (children : List Tree)

def attributesText (t : Table) : String :=
  Arguments.attributesHtml ⟨Arguments.collect t.pairs, []⟩

namespace Tree

mutual

/-- The value of a tree, calls evaluated from the innermost outwards. The tables of a call can be
anywhere, and its children in a table of any layout. -/
def Gives : Tree → Value → Prop
  | .text s, v => v = .string s
  | .node spec attributes children, v =>
    ∃ (tables : Nat → Table) (a c : Nat), tables a = attributes ∧
      AllGive children (tables c).sequence ∧ v = .ofText (spec.render tables [.table a, .table c])

def AllGive : List Tree → List Value → Prop
  | [], vs => vs = []
  | t :: ts, vs => ∃ v rest, vs = v :: rest ∧ t.Gives v ∧ AllGive ts rest

end

mutual

/-- The opening tags, outer before inner; an element without content has none within it. -/
def tags : Tree → List OpeningTag
  | .text _ => []
  | .node spec attributes children =>
    ⟨spec.tagName, attributesText attributes⟩ :: if spec.selfClosing then [] else allTags children

def allTags : List Tree → List OpeningTag
  | [] => []
  | t :: ts => t.tags ++ allTags ts

end

mutual

def texts : Tree → String
  | .text s => s.toText
  | .node spec _ children => if spec.selfClosing then "" else allTexts children

def allTexts : List Tree → String
  | [] => ""
  | t :: ts => t.texts ++ allTexts ts

end

mutual

/-- Nothing but tags has brackets, the names can stand in tags, and which elements have no content
is a matter of their names. -/
def Tidy (isVoid : String → Bool) : Tree → Prop
  | .text s => BracketFree s.toText
  | .node spec attributes children =>
    IsTagName spec.tagName ∧ spec.selfClosing = isVoid spec.tagName ∧
      (∀ pair ∈ attributes.pairs, ∀ a, Arguments.attribute? pair = some a →
        BracketFree a.1 ∧ BracketFree a.2) ∧
      AllTidy isVoid children

def AllTidy (isVoid : String → Bool) : List Tree → Prop
  | [] => True
  | t :: ts => t.Tidy isVoid ∧ AllTidy isVoid ts

end

/-! ### What a tree is written as -/

mutual

def html : Tree → String
  | .text s => s.toText
  | .node spec attributes children => spec.html (attributesText attributes) (allHtml children)

def allHtml : List Tree → String
  | [] => ""
  | t :: ts => t.html ++ allHtml ts

end

end Tree

@[simp] private theorem valueText?_ofText (s : String) : valueText? (.ofText s) = some s := by
  rw [Value.ofText, valueText?, Bytes.toText_ofText]

private theorem render_tables (e : ElementSpec) (tables : Nat → Table) (a c : Nat) :
    e.render tables [.table a, .table c] =
      e.html (attributesText (tables a))
        (String.join ((tables c).sequence.filterMap valueText?)) := by
  simp [ElementSpec.render, Arguments.html, Arguments.classify, Arguments.holdsAttributes,
    Arguments.contribution, attributesText, Arguments.attributesHtml]

namespace Tree

mutual

theorem Gives.valueText {t : Tree} {v : Value} (h : t.Gives v) : valueText? v = some t.html := by
  cases t with
  | text s =>
    rw [Gives] at h
    rw [h]
    rfl
  | node spec attributes children =>
    rw [Gives] at h
    obtain ⟨tables, a, c, rfl, hchildren, rfl⟩ := h
    rw [valueText?_ofText, render_tables, hchildren.join, html]

theorem AllGive.join {ts : List Tree} {vs : List Value} (h : AllGive ts vs) :
    String.join (vs.filterMap valueText?) = allHtml ts := by
  cases ts with
  | nil =>
    rw [AllGive] at h
    rw [h]
    rfl
  | cons t ts =>
    rw [AllGive] at h
    obtain ⟨v, rest, rfl, hv, hrest⟩ := h
    rw [List.filterMap_cons, hv.valueText, String.join_cons, hrest.join, allHtml]

end

end Tree

/-! ### Every tree has a value -/

private theorem sequenceFrom_ofList (read rest : List Value) (hrest : ∀ v ∈ rest, v ≠ .nil) :
    (Table.ofList (read ++ rest)).sequenceFrom rest.length (read.length + 1) read.reverse =
      read ++ rest := by
  induction rest generalizing read with
  | nil => simp [Table.sequenceFrom]
  | cons v rest ih =>
    have hitem : (Table.ofList (read ++ v :: rest)).item (read.length + 1) = v := by
      simp [Table.item, Table.ofList]
    have hnext := ih (read ++ [v]) fun w hw => hrest w (List.mem_cons_of_mem _ hw)
    have hne := hrest v List.mem_cons_self
    rw [List.length_cons, Table.sequenceFrom, hitem]
    simpa using hnext

@[simp] private theorem sequence_ofList {vs : List Value} (hvs : ∀ v ∈ vs, v ≠ .nil) :
    (Table.ofList vs).sequence = vs := by
  have hread := sequenceFrom_ofList [] vs hvs
  simpa [Table.sequence, Table.ofList] using hread

private theorem bracketFree_join {l : List String} (hl : ∀ s ∈ l, BracketFree s) :
    BracketFree (String.join l) := by
  simp only [BracketFree, String.toList_join, List.mem_flatMap, not_exists, not_and]
  exact ⟨fun s hs => (hl s hs).1, fun s hs => (hl s hs).2⟩

private theorem attributeHtml_bracketFree {a : String × String} (hkey : BracketFree a.1)
    (hvalue : BracketFree a.2) : BracketFree (Arguments.attributeHtml a) := by
  simp [BracketFree, Arguments.attributeHtml, hkey.1, hkey.2, hvalue.1, hvalue.2]

private theorem attributesText_isTagRest {t : Table}
    (h : ∀ pair ∈ t.pairs, ∀ a, Arguments.attribute? pair = some a →
      BracketFree a.1 ∧ BracketFree a.2) : IsTagRest (attributesText t) where
  bracketFree := by
    refine bracketFree_join ?_
    intro s hs
    obtain ⟨a, ha, rfl⟩ := List.mem_map.mp hs
    obtain ⟨hkey, hvalue⟩ := Arguments.collect_all h a ha
    exact attributeHtml_bracketFree hkey hvalue
  starts_blank := by
    rw [attributesText, Arguments.attributesHtml]
    cases Arguments.collect t.pairs with
    | nil => exact .inl rfl
    | cons a as =>
      refine .inr ⟨(a.1 ++ "=\"" ++ a.2 ++ "\"" ++
        String.join (as.map Arguments.attributeHtml)).toList, ?_⟩
      simp [Arguments.attributeHtml]

namespace Tree

mutual

theorem exists_value (t : Tree) : ∃ v, t.Gives v ∧ v ≠ .nil := by
  cases t with
  | text s => exact ⟨.string s, by rw [Gives], Value.noConfusion⟩
  | node spec attributes children =>
    obtain ⟨vs, hvs, hne⟩ := exists_values children
    let tables : Nat → Table := fun n => if n = 0 then attributes else .ofList vs
    refine ⟨.ofText (spec.render tables [.table 0, .table 1]), ?_, Value.noConfusion⟩
    rw [Gives]
    refine ⟨tables, 0, 1, rfl, ?_, rfl⟩
    rwa [show tables 1 = .ofList vs from rfl, sequence_ofList hne]

theorem exists_values (ts : List Tree) : ∃ vs, AllGive ts vs ∧ ∀ v ∈ vs, v ≠ .nil := by
  cases ts with
  | nil => exact ⟨[], by rw [AllGive], by simp⟩
  | cons t ts =>
    obtain ⟨v, hv, hne⟩ := exists_value t
    obtain ⟨vs, hvs, hall⟩ := exists_values ts
    refine ⟨v :: vs, ?_, by simpa using ⟨hne, hall⟩⟩
    rw [AllGive]
    exact ⟨v, vs, rfl, hv, hvs⟩

end

/-! ### Reading the tags -/

mutual

theorem scan_html (isVoid : String → Bool) (unclosed : List String) (opened : List OpeningTag)
    (text : List Char) {t : Tree} (ht : t.Tidy isVoid) :
    TagReader.scan isVoid ⟨none, unclosed, opened, text⟩ t.html =
      some ⟨none, unclosed, opened ++ t.tags, text ++ t.texts.toList⟩ := by
  cases t with
  | text s =>
    rw [Tidy] at ht
    rw [html, TagReader.scan_text _ _ _ _ ht.1, tags, List.append_nil, texts]
  | node spec attributes children =>
    rw [Tidy] at ht
    obtain ⟨hname, hvoid, hattributes, hchildren⟩ := ht
    have hrest := attributesText_isTagRest hattributes
    have hopening := TagReader.scan_opening isVoid unclosed opened text hname hrest
    rw [html, tags, texts]
    cases he : spec.selfClosing with
    | true =>
      rw [ElementSpec.html_void he, hopening, ← hvoid, he]
      simp
    | false =>
      -- the content is read while this element is the one opened last
      have hcontent := scan_allHtml isVoid (spec.tagName :: unclosed)
        (opened ++ [⟨spec.tagName, attributesText attributes⟩]) text hchildren
      have hdoctype : TagReader.scan isVoid ⟨none, unclosed, opened, text⟩
          (if spec.doctype then doctypeText else "") = some ⟨none, unclosed, opened, text⟩ := by
        split
        · exact TagReader.scan_doctype _ _ _ _
        · rfl
      have hparts : "<" ++ spec.tagName ++ attributesText attributes ++ ">" ++ allHtml children ++
          "</" ++ spec.tagName ++ ">" =
          "<" ++ spec.tagName ++ attributesText attributes ++ ">" ++
            (allHtml children ++ ("</" ++ spec.tagName ++ ">")) := by
        simp only [String.append_assoc]
      rw [← hvoid, he] at hopening
      rw [ElementSpec.html_paired he, hparts, TagReader.scan_append, hdoctype, Option.bind_some,
        TagReader.scan_append, hopening, Option.bind_some, TagReader.scan_append]
      simp only [Bool.false_eq_true, if_false]
      rw [hcontent, Option.bind_some, TagReader.scan_closing _ _ _ _ hname]
      simp

theorem scan_allHtml (isVoid : String → Bool) (unclosed : List String) (opened : List OpeningTag)
    (text : List Char) {ts : List Tree} (hts : AllTidy isVoid ts) :
    TagReader.scan isVoid ⟨none, unclosed, opened, text⟩ (allHtml ts) =
      some ⟨none, unclosed, opened ++ allTags ts, text ++ (allTexts ts).toList⟩ := by
  cases ts with
  | nil => simp [allHtml, allTags, allTexts, TagReader.scan]
  | cons t ts =>
    rw [AllTidy] at hts
    rw [allHtml, TagReader.scan_append, scan_html _ _ _ _ hts.1, Option.bind_some,
      scan_allHtml _ _ _ _ hts.2, allTags, allTexts, String.toList_append, List.append_assoc,
      List.append_assoc]

end

end Tree

/-- Calls within calls give nested tags. Whatever heap a tree is evaluated in, the tags of the markup
are read to the end, each closing tag being that of the element opened last: the opening tags are the
calls of the tree, outer before inner, and the text between tags is that of the tree, without what is
within elements that have no content. -/
theorem nested_calls_read (isVoid : String → Bool) (t : Tree) (ht : t.Tidy isVoid) :
    (∃ v, t.Gives v) ∧
    ∀ v, t.Gives v → ∃ html, valueText? v = some html ∧
      readTags isVoid html = some (t.tags, t.texts) := by
  refine ⟨(Tree.exists_value t).imp fun v hv => hv.1, ?_⟩
  intro v hv
  have hread := Tree.scan_html isVoid [] [] [] ht
  refine ⟨t.html, hv.valueText, ?_⟩
  simp only [readTags, TagReader.start, hread]
  simp

/-- A paragraph in a document, with an image that loses its text. -/
theorem nested_calls_read_document :
    let classes : Table := ⟨#[], [(.ofText "class", .ofText "x")], 1, none⟩
    let image : Tree := .node (.ofName "Img" true) .empty [.text (.ofText "lost")]
    let document : Tree := .node (.ofName "Html" false) .empty
      [.node (.ofName "P" false) classes [.text (.ofText "a"), image, .text (.ofText "b")]]
    document.Tidy (· = "img") ∧
      ∃ v html, document.Gives v ∧ valueText? v = some html ∧
        readTags (· = "img") html =
          some ([⟨"html", ""⟩, ⟨"p", " class=\"x\""⟩, ⟨"img", ""⟩], "ab") := by
  intro classes image document
  have hname : ∀ name ∈ ["html", "p", "img"], IsTagName name := by
    intro name hname
    simp only [List.mem_cons, List.not_mem_nil, or_false] at hname
    rcases hname with rfl | rfl | rfl
    all_goals exact ⟨by decide, ⟨by decide, by decide⟩, by decide, by decide⟩
  have htidy : document.Tidy (· = "img") := by
    refine ⟨hname "html" (by simp), by decide, by simp [Table.pairs, Table.arrayPairs, Table.empty],
      ⟨hname "p" (by simp), by decide, ?_, ⟨by decide, by decide⟩,
        ⟨hname "img" (by simp), by decide, by simp [Table.pairs, Table.arrayPairs, Table.empty],
          ⟨by decide, by decide⟩, trivial⟩, ⟨by decide, by decide⟩, trivial⟩, trivial⟩
    intro pair hpair a ha
    have hclass : classes.pairs = [(.ofText "class", .ofText "x")] := rfl
    rw [hclass, List.mem_singleton] at hpair
    subst hpair
    obtain rfl : ("class", "x") = a := Option.some.inj ha
    exact ⟨⟨by decide, by decide⟩, by decide, by decide⟩
  obtain ⟨⟨v, hv⟩, hread⟩ := nested_calls_read _ _ htidy
  obtain ⟨html, hhtml, htags⟩ := hread v hv
  refine ⟨htidy, v, html, hv, hhtml, htags.trans ?_⟩
  rfl

end Pagewright.Markup
