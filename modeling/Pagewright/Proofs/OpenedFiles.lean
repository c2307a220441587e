import Pagewright.Proofs.FilePaths
import Pagewright.Proofs.Responses

/-! Which files a request opens for its page: at most two children of the template directory, named by
the segments of the path and by nothing else of the request. -/
namespace Pagewright.Server

open Http (Request Response)
open Page (Context PageHandler Pool)

def IsPlain (c : Char) : Prop :=
  'A' ≤ c ∧ c ≤ 'Z' ∨ 'a' ≤ c ∧ c ≤ 'z' ∨ '0' ≤ c ∧ c ≤ '9' ∨ c = '_' ∨ c = '-'

instance (c : Char) : Decidable (IsPlain c) :=
  inferInstanceAs (Decidable (_ ∨ _))

structure PlainName (name : String) : Prop where
  nonempty : name ≠ ""
  plain : ∀ c ∈ name.toList, IsPlain c

theorem isPlain_of_isNameChar {c : Char} (h : Page.isNameChar c = true) : IsPlain c := by
  unfold Page.isNameChar Char.isAlphanum Char.isAlpha Char.isUpper Char.isLower Char.isDigit at h
  simp only [Bool.or_eq_true, Bool.and_eq_true, decide_eq_true_eq, or_assoc] at h
  exact h

namespace PlainName

variable {name : String}

theorem not_mem (h : PlainName name) {c : Char} (hc : ¬IsPlain c) : c ∉ name.toList :=
  fun hmem => hc (h.plain c hmem)

theorem of_pageName? {segments : List String} (h : Page.pageName? segments = some name) :
    PlainName name ∧ (segments = [] ∧ name = "home" ∨ segments = [name]) := by
  unfold Page.pageName? at h
  split at h
  · obtain rfl := Option.some.inj h
    have hhome : "home".toList.all Page.isNameChar = true := by decide
    exact ⟨⟨by decide, fun c hc => isPlain_of_isNameChar (List.all_eq_true.mp hhome c hc)⟩,
      .inl ⟨rfl, rfl⟩⟩
  · next single =>
    split at h
    · next hplain =>
      obtain rfl := Option.some.inj h
      simp only [Bool.and_eq_true, Bool.not_eq_true', String.isEmpty_eq_false_iff,
        List.all_eq_true] at hplain
      exact ⟨⟨hplain.1, fun c hc => isPlain_of_isNameChar (hplain.2 c hc)⟩, .inr rfl⟩
    · cases h
  · cases h

theorem isName (h : PlainName name) {ending : String} (hending : ending ∈ [".lua", ".json"]) :
    Path.IsName (name ++ ending) := by
  have hend : ∀ ending ∈ [".lua", ".json"], 4 ≤ ending.length ∧ '/' ∉ ending.toList := by decide
  have hlong : 2 < (name ++ ending).length := by
    have := (hend ending hending).1
    rw [String.length_append]
    omega
  have hslash : '/' ∉ (name ++ ending).toList := by
    simp [h.not_mem (show ¬IsPlain '/' by decide), (hend ending hending).2]
  refine ⟨?_, ?_, ?_, hslash⟩ <;> intro heq <;> rw [heq] at hlong <;> revert hlong <;> decide

end PlainName

/-- The files that are opened for the page which some segments name. -/
def pageOpened (c : Config) (files : Files) (segments : List String) : List String :=
  (Page.pageName? segments).elim [] fun name =>
    (pageFiles ⟨c.templateDir, c.defaultHeading⟩ files name).2

private theorem mem_pageFiles {h : PageHandler} {files : Files} {name path : String}
    (hpath : path ∈ (pageFiles h files name).2) :
    ∃ ending ∈ [".lua", ".json"], path = Path.join h.templateDir (name ++ ending) := by
  have hpaths : path = h.templatePath name ∨ path = h.variablesPath name := by
    unfold pageFiles at hpath
    cases hread : files.readText (h.templatePath name) with
    | error e => cases e <;> simp_all
    | ok script => simpa [hread] using hpath
  rcases hpaths with rfl | rfl
  · exact ⟨".lua", by decide, rfl⟩
  · exact ⟨".json", by decide, rfl⟩

/-- A page is made from the files that are opened for it and from no others. -/
theorem source_congr {h : PageHandler} {files files' : Files} {name : String}
    (hsame : ∀ path ∈ (pageFiles h files name).2, files'.readText path = files.readText path) :
    (h.source files' name).run [] = (h.source files name).run [] := by
  unfold pageFiles at hsame
  unfold PageHandler.source
  simp only [run_bind, readOptional_run]
  cases hread : files.readText (h.templatePath name) with
  | error e =>
      rw [hread] at hsame
      have htemplate : files'.readText (h.templatePath name) = .error e := by
        rw [← hread]
        apply hsame
        cases e <;> exact List.mem_singleton_self _
      rw [htemplate]
      cases e <;> rfl
  | ok script =>
      rw [hread] at hsame
      have htemplate : files'.readText (h.templatePath name) = .ok script := by
        rw [← hread]
        exact hsame _ List.mem_cons_self
      have hvariables := hsame (h.variablesPath name) (List.mem_cons_of_mem _ List.mem_cons_self)
      rw [htemplate]
      simp only [run_bind, variablesOf_run, hvariables]

private theorem decision_opened (registry : Markup.Registry) (c : Config) (port : Option Nat)
    (files : Files)
    (pool : Pool Context) (r : Request) (hmethod : ¬(r.method ≠ "GET" ∧ r.method ≠ "HEAD")) :
    (decision registry c port files pool r).2.2 = pageOpened c files r.segments := by
  have hpages (segments : List String) :
      (pageDecision registry c files pool segments).2.2 = pageOpened c files segments := by
    unfold pageDecision pageOpened
    cases Page.pageName? segments <;> rfl
  unfold decision
  rw [if_neg hmethod]
  split
  · next hsegments =>
    rw [hsegments]
    rfl
  · exact hpages r.segments

theorem handle_opened (c : Config) (start files : Files) (port : Option Nat) (r : Request)
    (s : State) :
    (((Application.ofConfig c start port).handle files r).run s).2.opened =
      s.opened ++ pageOpened c files r.segments := by
  -- the method is looked at before a request is handled, and not again
  have hget : ¬("GET" ≠ "GET" ∧ "GET" ≠ "HEAD") := by decide
  have hsegments : r.segments = (Request.mk "GET" r.target).segments := rfl
  rw [hsegments, ← decision_opened (c.registry start) c port files s.pool ⟨"GET", r.target⟩ hget]
  exact (handle_eq_decision c start files port ⟨"GET", r.target⟩ s hget).2.2

private theorem respond_opened (app : Application) (files : Files) (peer : String) (r : Request)
    (s : State) :
    ((app.respond files peer r).run s).2.opened =
      if r.method ∈ Application.methods then ((app.handle files r).run s).2.opened
      else s.opened := by
  unfold Application.respond
  by_cases hmethod : r.method ∈ Application.methods
  · rw [if_pos hmethod, if_pos (List.contains_iff_mem.mpr hmethod)]
    rfl
  · rw [if_neg hmethod, if_neg (by rwa [List.contains_iff_mem])]
    rfl

/-- Whatever the target of a request is, the files opened for its page are children of the template
directory: their names are that of the one segment, or of the home page if there is no segment, with one
of two endings, and each leads to a child of the place that the directory is at. What is opened depends on
the segments alone, and what the page is made from on no other file. -/
theorem opened_below_templates (c : Config) (start files : Files) (port : Option Nat)
    (peer : String) (r : Request) (s : State) :
    let app := Application.ofConfig c start port
    ∃ opened : List String,
      ((app.handle files r).run s).2.opened = s.opened ++ opened ∧
      ((app.respond files peer r).run s).2.opened =
        s.opened ++ (if r.method ∈ Application.methods then opened else []) ∧
      (∀ path ∈ opened, ∃ name, ∃ ending ∈ [".lua", ".json"],
        (r.segments = [] ∧ name = "home" ∨ r.segments = [name]) ∧
        PlainName name ∧ '/' ∉ name.toList ∧ '.' ∉ name.toList ∧ '\x00' ∉ name.toList ∧
        path = Path.join c.templateDir (name ++ ending) ∧
        ∀ place e, files.resolve path = .ok (place, e) →
          ∃ dir, files.follow c.templateDir = .ok (some dir, .directory) ∧
            place = some (dir ++ [name ++ ending])) ∧
      (∀ (r' : Request) (s' : State), r'.segments = r.segments →
        ((app.handle files r').run s').2.opened = s'.opened ++ opened) ∧
      ∀ files' : Files, (∀ path ∈ opened, files'.readText path = files.readText path) →
        ∀ name, Page.pageName? r.segments = some name →
          let h : PageHandler := ⟨c.templateDir, c.defaultHeading⟩
          (h.source files' name).run [] = (h.source files name).run [] := by
  intro app
  refine ⟨pageOpened c files r.segments, handle_opened c start files port r s, ?_, ?_, ?_, ?_⟩
  · rw [respond_opened, handle_opened]
    split
    · rfl
    · rw [List.append_nil]
  · intro path hpath
    unfold pageOpened at hpath
    cases hname : Page.pageName? r.segments with
    | none => simp [hname] at hpath
    | some name =>
        rw [hname] at hpath
        obtain ⟨ending, hending, rfl⟩ := mem_pageFiles hpath
        obtain ⟨hplain, hsegments⟩ := PlainName.of_pageName? hname
        exact ⟨name, ending, hending, hsegments, hplain, hplain.not_mem (by decide),
          hplain.not_mem (by decide), hplain.not_mem (by decide), rfl,
          fun place e => Files.resolve_join (hplain.isName hending)⟩
  · intro r' s' hsegments
    rw [handle_opened, hsegments]
  · intro files' hsame name hname
    apply source_congr
    unfold pageOpened at hsame
    rwa [hname] at hsame

/-- A path with escapes and slashes to spare opens what the plain one opens, whatever the method. -/
theorem opened_below_templates_respelled :
    let app := Application.ofConfig .standard ⟨[]⟩ (some 35729)
    let r : Request := ⟨"GET", "//%68o%6De/?../secret"⟩
    let r' : Request := ⟨"POST", "/home"⟩
    let s := State.ofPool (.new 20)
    r'.segments = r.segments ∧
      ((app.handle ⟨[]⟩ r').run s).2.opened = ((app.handle ⟨[]⟩ r).run s).2.opened := by
  intro app r r' s
  have hsegments : r'.segments = r.segments := by decide +kernel
  have hopened := opened_below_templates .standard ⟨[]⟩ ⟨[]⟩ (some 35729) "peer" r s
  obtain ⟨opened, hhandle, -, -, hsame, -⟩ := hopened
  refine ⟨hsegments, ?_⟩
  rw [hsame r' s hsegments, hhandle]

end Pagewright.Server
