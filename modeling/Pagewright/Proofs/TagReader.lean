import Pagewright.Markup.Element
import Pagewright.Text.Blank

/-!
Reading the tags of a markup, from left to right. A closing tag has to be that of the element opened
last of those still open; elements without content are never open.
-/
namespace Pagewright.Markup

structure OpeningTag where
  name : String
  attributes : String
deriving DecidableEq, Repr

def OpeningTag.ofInside (inside : List Char) : OpeningTag :=
  ⟨String.ofList (inside.takeWhile fun c => !Text.isBlank c),
    String.ofList (inside.dropWhile fun c => !Text.isBlank c)⟩

/-- The reader between two characters. -/
structure TagReader where
  /-- What was read of a tag that has not ended, last first. -/
  inside : Option (List Char)
  /-- The names of the elements that are open, innermost first. -/
  unclosed : List String
  /-- The opening tags, in order. -/
  opened : List OpeningTag
  /-- What stands between tags, in order. -/
  text : List Char
deriving DecidableEq, Repr

namespace TagReader

def start : TagReader := ⟨none, [], [], []⟩

def take (isVoid : String → Bool) (r : TagReader) (inside : List Char) : Option TagReader :=
  if "<" ++ String.ofList inside ++ ">" = doctypeText then some r
  else match inside with
    | '/' :: name =>
      if r.unclosed.head? = some (String.ofList name) then
        some { r with unclosed := r.unclosed.tail }
      else none
    | _ =>
      let tag := OpeningTag.ofInside inside
      some { r with
        unclosed := if isVoid tag.name then r.unclosed else tag.name :: r.unclosed
        opened := r.opened ++ [tag] }

def next (isVoid : String → Bool) (r : TagReader) (c : Char) : Option TagReader :=
  match r.inside with
  | none =>
    if c = '<' then some { r with inside := some [] } else some { r with text := r.text ++ [c] }
  | some inside =>
    if c = '>' then take isVoid { r with inside := none } inside.reverse
    else some { r with inside := some (c :: inside) }

def scan (isVoid : String → Bool) (r : TagReader) (s : String) : Option TagReader :=
  s.toList.foldlM (next isVoid) r

end TagReader

/-- The opening tags of a markup, and the text between tags; nothing if a closing tag has the wrong
name, or an element or a tag is not closed. -/
def readTags (isVoid : String → Bool) (s : String) : Option (List OpeningTag × String) :=
  match TagReader.scan isVoid .start s with
  | some ⟨none, [], opened, text⟩ => some (opened, String.ofList text)
  | _ => none

def BracketFree (s : String) : Prop := '<' ∉ s.toList ∧ '>' ∉ s.toList

structure IsTagName (name : String) : Prop where
  ne_empty : name ≠ ""
  bracketFree : BracketFree name
  no_mark : '/' ∉ name.toList ∧ '!' ∉ name.toList
  no_blank : name.toList.any Text.isBlank = false

/-- What can stand behind a name: nothing, or a blank and more, but not the end of the tag. -/
structure IsTagRest (rest : String) : Prop where
  bracketFree : BracketFree rest
  starts_blank : rest = "" ∨ ∃ more, rest.toList = ' ' :: more

theorem OpeningTag.ofInside_append {name rest : String} (hname : IsTagName name)
    (hrest : IsTagRest rest) : ofInside (name ++ rest).toList = ⟨name, rest⟩ := by
  have hall : ∀ c ∈ name.toList, (!Text.isBlank c) = true := by
    simpa using List.any_eq_false.mp hname.no_blank
  rw [ofInside, String.toList_append, List.takeWhile_append_of_pos hall,
    List.dropWhile_append_of_pos hall]
  obtain rfl | ⟨more, hmore⟩ := hrest.starts_blank
  · simp
  · have hblank : Text.isBlank ' ' = true := rfl
    rw [hmore, List.takeWhile_cons_of_neg (by simp [hblank]), List.append_nil,
      List.dropWhile_cons_of_neg (by simp [hblank]), ← hmore, String.ofList_toList,
      String.ofList_toList]

namespace TagReader

variable (isVoid : String → Bool) (unclosed : List String) (opened : List OpeningTag)
  (text : List Char)

theorem scan_append (r : TagReader) (a b : String) :
    scan isVoid r (a ++ b) = (scan isVoid r a).bind fun r => scan isVoid r b := by
  rw [scan, String.toList_append, List.foldlM_append]
  rfl

private theorem next_between {c : Char} (hc : c ≠ '<') :
    next isVoid ⟨none, unclosed, opened, text⟩ c =
      some ⟨none, unclosed, opened, text ++ [c]⟩ :=
  if_neg hc

private theorem next_inside {c : Char} (hc : c ≠ '>') (inside : List Char) :
    next isVoid ⟨some inside, unclosed, opened, text⟩ c =
      some ⟨some (c :: inside), unclosed, opened, text⟩ :=
  if_neg hc

theorem scan_text {s : String} (hs : '<' ∉ s.toList) :
    scan isVoid ⟨none, unclosed, opened, text⟩ s =
      some ⟨none, unclosed, opened, text ++ s.toList⟩ := by
  rw [scan]
  generalize s.toList = cs at hs
  induction cs generalizing text with
  | nil => simp
  | cons c cs ih =>
    rw [List.mem_cons, not_or] at hs
    rw [List.foldlM_cons, next_between _ _ _ _ (Ne.symm hs.1)]
    simpa using ih (text ++ [c]) hs.2

private theorem foldlM_inside {cs : List Char} (hcs : '>' ∉ cs) (inside : List Char) :
    cs.foldlM (next isVoid) ⟨some inside, unclosed, opened, text⟩ =
      some ⟨some (cs.reverse ++ inside), unclosed, opened, text⟩ := by
  induction cs generalizing inside with
  | nil => rfl
  | cons c cs ih =>
    rw [List.mem_cons, not_or] at hcs
    rw [List.foldlM_cons, next_inside _ _ _ _ (Ne.symm hcs.1)]
    simpa using ih hcs.2 (c :: inside)

theorem scan_tag {inside : String} (hinside : '>' ∉ inside.toList) :
    scan isVoid ⟨none, unclosed, opened, text⟩ ("<" ++ inside ++ ">") =
      take isVoid ⟨none, unclosed, opened, text⟩ inside.toList := by
  have hread := foldlM_inside isVoid unclosed opened text hinside []
  rw [List.append_nil] at hread
  have hchars : ("<" ++ inside ++ ">").toList = '<' :: (inside.toList ++ ['>']) := by simp
  rw [scan, hchars, List.foldlM_cons]
  change List.foldlM (next isVoid) ⟨some [], unclosed, opened, text⟩ _ = _
  rw [List.foldlM_append, hread]
  change List.foldlM (next isVoid) _ ['>'] = _
  simp [next]

@[simp] theorem scan_doctype :
    scan isVoid ⟨none, unclosed, opened, text⟩ doctypeText =
      some ⟨none, unclosed, opened, text⟩ := by
  have hinside : '>' ∉ "!DOCTYPE html".toList := by decide
  exact scan_tag isVoid unclosed opened text hinside

theorem not_doctype {inside : List Char} (hinside : inside.head? ≠ some '!') :
    "<" ++ String.ofList inside ++ ">" ≠ doctypeText := by
  intro h
  have hchars : '<' :: (inside ++ ['>']) = doctypeText.toList := by
    rw [← h]
    simp
  have hdoctype : doctypeText.toList = '<' :: '!' :: "DOCTYPE html>".toList := rfl
  rw [hdoctype, List.cons.injEq] at hchars
  cases inside with
  | nil => exact absurd hchars.2 (by decide)
  | cons c cs => exact hinside (congrArg some (List.cons.inj hchars.2).1)

private theorem take_opening {name rest : String} (hname : IsTagName name)
    (hrest : IsTagRest rest) :
    take isVoid ⟨none, unclosed, opened, text⟩ (name ++ rest).toList =
      some ⟨none, if isVoid name then unclosed else name :: unclosed, opened ++ [⟨name, rest⟩],
        text⟩ := by
  have htag := OpeningTag.ofInside_append hname hrest
  obtain ⟨c, cs, hchars⟩ :=
    List.exists_cons_of_ne_nil (mt String.toList_eq_nil_iff.mp hname.ne_empty)
  have hmark := hname.no_mark
  rw [hchars, List.mem_cons, List.mem_cons, not_or, not_or] at hmark
  rw [String.toList_append, hchars, List.cons_append] at htag ⊢
  rw [take, if_neg (not_doctype (by simpa using Ne.symm hmark.2.1))]
  · rw [htag]
  · intro closing hslash
    exact hmark.1.1 (List.cons.inj hslash).1.symm

theorem scan_opening {name rest : String} (hname : IsTagName name) (hrest : IsTagRest rest) :
    scan isVoid ⟨none, unclosed, opened, text⟩ ("<" ++ name ++ rest ++ ">") =
      some ⟨none, if isVoid name then unclosed else name :: unclosed, opened ++ [⟨name, rest⟩],
        text⟩ := by
  have hinside : '>' ∉ (name ++ rest).toList := by
    simp [hname.bracketFree.2, hrest.bracketFree.2]
  have htext : "<" ++ name ++ rest ++ ">" = "<" ++ (name ++ rest) ++ ">" := by
    simp [String.append_assoc]
  rw [htext, scan_tag _ _ _ _ hinside, take_opening _ _ _ _ hname hrest]

theorem scan_closing {name : String} (hname : IsTagName name) :
    scan isVoid ⟨none, name :: unclosed, opened, text⟩ ("</" ++ name ++ ">") =
      some ⟨none, unclosed, opened, text⟩ := by
  have hinside : '>' ∉ ("/" ++ name).toList := by
    simp [hname.bracketFree.2]
  have hchars : ("/" ++ name).toList = '/' :: name.toList := by simp
  have htext : "</" ++ name ++ ">" = "<" ++ ("/" ++ name) ++ ">" := by
    simp [← String.append_assoc]
  rw [htext, scan_tag _ _ _ _ hinside, hchars, take, if_neg (not_doctype (by simp))]
  simp

end TagReader

/-- Tags that cross each other are no markup. -/
example : readTags (fun _ => false) "<p><b></p></b>" = none := by decide

end Pagewright.Markup
