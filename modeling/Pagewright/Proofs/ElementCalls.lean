import Pagewright.Markup.Arguments

/-!
Calls of one element. A call without arguments, and one whose only argument is taken as the body as
it stands, are written without parting the arguments; what they write is compared with what the parts
would have given.
-/
namespace Pagewright.Markup

open Script (Value Table)

variable (e : ElementSpec) (tables : Nat → Table) (args : List Value)

namespace ElementSpec

def TakesBody : Prop := e.rawBody = true ∧ ∃ body, args = [.string body]

/-- The element has a document type, but the call is written without it. -/
def DropsDoctype : Prop :=
  e.selfClosing = false ∧ e.doctype = true ∧ (args = [] ∨ e.TakesBody args)

theorem not_dropsDoctype {e : ElementSpec} {args : List Value} (he : e.doctype = false) :
    ¬e.DropsDoctype args := by
  rintro ⟨-, hdoctype, -⟩
  exact Bool.false_ne_true (he.symm.trans hdoctype)

theorem render_body {e : ElementSpec} (he : e.rawBody = true) (body : Bytes) :
    e.render tables [.string body] =
      "<" ++ e.tagName ++ ">" ++ body.toText ++ "</" ++ e.tagName ++ ">" := by
  rw [render, if_pos he]

theorem render_of_not_body {args : List Value} (hargs : args ≠ []) (hbody : ¬e.TakesBody args) :
    e.render tables args = (Arguments.classify tables args).html e := by
  unfold render
  split
  · contradiction
  · rename_i body
    have hraw : ¬e.rawBody = true := fun h => hbody ⟨h, body, rfl⟩
    rw [if_neg hraw]
  · rfl

@[simp] theorem html_void {e : ElementSpec} (he : e.selfClosing = true)
    (attributes content : String) :
    e.html attributes content = "<" ++ e.tagName ++ attributes ++ ">" := by
  rw [html, if_pos he]

theorem html_paired {e : ElementSpec} (he : e.selfClosing = false) (attributes content : String) :
    e.html attributes content = (if e.doctype then doctypeText else "") ++
      ("<" ++ e.tagName ++ attributes ++ ">" ++ content ++ "</" ++ e.tagName ++ ">") := by
  simp only [html, he, Bool.false_eq_true, if_false, String.append_assoc]

end ElementSpec

namespace Arguments

@[simp] theorem classify_nil : classify tables [] = ⟨[], []⟩ := rfl

@[simp] theorem classify_string (body : Bytes) :
    classify tables [.string body] = ⟨[], [body.toText]⟩ := rfl

@[simp] theorem attributesHtml_nil (content : List String) :
    attributesHtml ⟨[], content⟩ = "" := rfl

end Arguments

namespace ElementSpec

@[simp] theorem render_nil_void {e : ElementSpec} (he : e.selfClosing = true) :
    e.render tables [] = "<" ++ e.tagName ++ ">" := by
  rw [render, emptyHtml, if_pos he]

@[simp] theorem render_nil_paired {e : ElementSpec} (he : e.selfClosing = false) :
    e.render tables [] = "<" ++ e.tagName ++ "></" ++ e.tagName ++ ">" := by
  rw [render, emptyHtml, if_neg (by simp [he])]

/-- A self-closing element is written as its opening tag and nothing else, with the attributes of
the call, unless it takes a string as its body: then the body and a closing tag follow, and this is
the only exception. -/
theorem void_render_iff {e : ElementSpec} (he : e.selfClosing = true) (tables : Nat → Table)
    (args : List Value) :
    (e.render tables args =
        "<" ++ e.tagName ++ (Arguments.classify tables args).attributesHtml ++ ">" ↔
      ¬e.TakesBody args) ∧
    ∀ body, e.rawBody = true → args = [.string body] →
      e.render tables args =
        "<" ++ e.tagName ++ ">" ++ body.toText ++ "</" ++ e.tagName ++ ">" := by
  refine ⟨⟨?_, ?_⟩, ?_⟩
  · rintro hrender ⟨hraw, body, rfl⟩
    rw [render_body tables hraw, Arguments.classify_string, Arguments.attributesHtml_nil] at hrender
    have hlength := congrArg String.length hrender
    have hclosing : "</".length = 2 := rfl
    have hempty : "".length = 0 := rfl
    simp only [String.length_append, hclosing, hempty] at hlength
    omega
  · intro hbody
    by_cases hargs : args = []
    · subst hargs
      rw [render_nil_void tables he, Arguments.classify_nil, Arguments.attributesHtml_nil,
        String.append_empty]
    · rw [e.render_of_not_body tables hargs hbody, Arguments.html, html_void he]
  · rintro body hraw rfl
    exact render_body tables hraw body

/-- An image whose description is not of its attributes. -/
theorem void_render_iff_image :
    let image := ElementSpec.ofName "Img" true
    let tables : Nat → Table := fun _ => ⟨#[], [(.ofText "src", .ofText "a.png")], 1, none⟩
    image.selfClosing = true ∧
      image.render tables [.table 0, .ofText "dropped"] = "<img src=\"a.png\">" := by
  refine ⟨rfl, ?_⟩
  rw [(void_render_iff rfl _ _).1.mpr (by rintro ⟨-, body, hargs⟩; cases hargs)]
  rfl

theorem void_with_body :
    let e := (ElementSpec.ofName "Br" true).withRawBody
    e.selfClosing = true ∧
      e.render (fun _ => .empty) [.ofText "x"] = "<br>x</br>" ∧
      "<br>x</br>" ≠ "<" ++ e.tagName ++
        (Arguments.classify (fun _ => .empty) [.ofText "x"]).attributesHtml ++ ">" := by
  refine ⟨rfl, ?_, ?_⟩
  · rfl
  · decide

theorem classified_of_drops {e : ElementSpec} {args : List Value} (h : e.DropsDoctype args) :
    (Arguments.classify tables args).html e = doctypeText ++ e.render tables args := by
  obtain ⟨hpaired, hdoctype, rfl | ⟨hraw, body, rfl⟩⟩ := h
  · rw [Arguments.html, html_paired hpaired, if_pos hdoctype, render_nil_paired tables hpaired]
    simp [String.append_assoc]
  · rw [Arguments.html, html_paired hpaired, if_pos hdoctype, render_body tables hraw]
    simp

theorem render_eq_classified {e : ElementSpec} {args : List Value}
    (he : ¬(e.selfClosing = true ∧ e.rawBody = true)) (hkeeps : ¬e.DropsDoctype args) :
    e.render tables args = (Arguments.classify tables args).html e := by
  by_cases hbody : e.TakesBody args
  · obtain ⟨hraw, body, rfl⟩ := hbody
    have hpaired : e.selfClosing = false := by simpa [hraw] using he
    have hdoctype : ¬e.doctype = true := fun h => hkeeps ⟨hpaired, h, .inr ⟨hraw, body, rfl⟩⟩
    rw [render_body tables hraw, Arguments.html, html_paired hpaired, if_neg hdoctype]
    simp
  · by_cases hargs : args = []
    · subst hargs
      rw [Arguments.html, Arguments.classify_nil, Arguments.attributesHtml_nil]
      cases he : e.selfClosing with
      | true => rw [render_nil_void tables he, html_void he, String.append_empty]
      | false =>
        have hdoctype : ¬e.doctype = true := fun h => hkeeps ⟨he, h, .inl rfl⟩
        rw [render_nil_paired tables he, html_paired he, if_neg hdoctype]
        simp [String.append_assoc]
    · exact e.render_of_not_body tables hargs hbody

/-- A call that is written without parting the arguments gives what the parts would have given,
except that it drops a document type; so for an element without one, taking a body changes no
call. -/
theorem render_eq_classified_iff {e : ElementSpec}
    (he : ¬(e.selfClosing = true ∧ e.rawBody = true)) (tables : Nat → Table) (args : List Value) :
    (e.render tables args = (Arguments.classify tables args).html e ↔ ¬e.DropsDoctype args) ∧
    (e.DropsDoctype args →
      (Arguments.classify tables args).html e = doctypeText ++ e.render tables args) ∧
    (e.selfClosing = false → e.doctype = false →
      e.withRawBody.render tables args = e.render tables args) := by
  refine ⟨⟨?_, render_eq_classified tables he⟩, classified_of_drops tables, ?_⟩
  · intro hrender hdrops
    have hlength := congrArg String.length (classified_of_drops tables hdrops)
    have hdoctype : doctypeText.length = 15 := rfl
    rw [← hrender, String.length_append, hdoctype] at hlength
    omega
  · intro hpaired hdoctype
    have he' : ¬(e.withRawBody.selfClosing = true ∧ e.withRawBody.rawBody = true) := by
      rintro ⟨hvoid, -⟩
      exact Bool.false_ne_true (hpaired.symm.trans hvoid)
    rw [render_eq_classified tables he (not_dropsDoctype hdoctype),
      render_eq_classified tables he' (not_dropsDoctype (e := e.withRawBody) hdoctype)]
    rfl

/-- The root of a document, written without arguments. -/
theorem render_eq_classified_iff_root :
    let root := ElementSpec.ofName "Html" false
    let tables : Nat → Table := fun _ => .empty
    ¬(root.selfClosing = true ∧ root.rawBody = true) ∧ root.DropsDoctype [] ∧
      root.render tables [] = "<html></html>" ∧
      (Arguments.classify tables []).html root = "<!DOCTYPE html><html></html>" := by
  have hroot : ¬((ElementSpec.ofName "Html" false).selfClosing = true ∧
      (ElementSpec.ofName "Html" false).rawBody = true) := by decide
  have hdrops : (ElementSpec.ofName "Html" false).DropsDoctype [] := ⟨rfl, by decide, .inl rfl⟩
  refine ⟨hroot, hdrops, rfl, ?_⟩
  rw [(render_eq_classified_iff hroot _ []).2.1 hdrops]
  rfl

end ElementSpec

end Pagewright.Markup
