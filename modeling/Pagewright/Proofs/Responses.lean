import Pagewright.Proofs.RouteLookup
import Pagewright.Server.Service

/-! What a request is answered with: a decision list over the method, the path, the two files of a page
and what its script comes to. -/
namespace Pagewright.Server

open Http (Request Response Router Status)
open Page (Context PageFault PageHandler Pool Variables)

inductive PageFiles where
  /-- There is no template. -/
  | missing
  /-- A file is there that cannot be used. -/
  | broken
  | usable (script : String) (vars : Variables)

/-- The files of a page, and which of them were opened: the variables only after a template. -/
def pageFiles (h : PageHandler) (files : Files) (name : String) : PageFiles × List String :=
  match files.readText (h.templatePath name) with
  | .error .notFound => (.missing, [h.templatePath name])
  | .error _ => (.broken, [h.templatePath name])
  | .ok script =>
    (match files.readText (h.variablesPath name) with
      | .error .notFound => .usable script (h.withHeading [])
      | .error _ => .broken
      | .ok text =>
        match Json.read? text with
        | some (.object vars) => .usable script (h.withHeading vars)
        | _ => .broken,
      [h.templatePath name, h.variablesPath name])

/-- The response to what the files of a page offer, and the pool after it: only a script that runs
takes a context. -/
def pageAnswer (registry : Markup.Registry) (files : Files) (pool : Pool Context) :
    PageFiles → Response × Pool Context
  | .missing => (.errorPage .notFound, pool)
  | .broken => (.errorPage .internalError, pool)
  | .usable script vars =>
    let (guard, left) := pool.get
    let rendering := (guard.context (.ofRegistry registry)).renderVariables files script vars
    (match rendering.result with
      | .ok html => .html .ok html
      | .error _ => .errorPage .internalError,
      left.drop Context.renders (.holding rendering.context))

def pageDecision (registry : Markup.Registry) (c : Config) (files : Files) (pool : Pool Context)
    (segments : List String) : Response × Pool Context × List String :=
  match Page.pageName? segments with
  | none => (.errorPage .notFound, pool, [])
  | some name =>
    let (offered, opened) := pageFiles ⟨c.templateDir, c.defaultHeading⟩ files name
    let (response, left) := pageAnswer registry files pool offered
    (response, left, opened)

/-- The response to a request, the pool after it and the files that were opened for it. -/
def decision (registry : Markup.Registry) (c : Config) (port : Option Nat) (files : Files)
    (pool : Pool Context) (r : Request) : Response × Pool Context × List String :=
  if r.method ≠ "GET" ∧ r.method ≠ "HEAD" then (.errorPage .notImplemented, pool, [])
  else match port, r.segments with
  | some port, ["livereload.js"] => (.javaScript (clientScript port), pool, [])
  | _, segments => pageDecision registry c files pool segments

/-! The layers, from the files up. -/

@[simp] theorem readOptional_run (files : Files) (path : String) (opened : List String) :
    (Page.readOptional files path).run opened =
      (match files.readText path with
        | .ok s => .ok (some s)
        | .error .notFound => .ok none
        | .error _ => .error (.reading path), opened ++ [path]) := by
  unfold Page.readOptional
  cases files.readText path with
  | ok s => rfl
  | error e => cases e <;> rfl

theorem variablesOf_run (h : PageHandler) (files : Files) (name : String) (opened : List String) :
    (h.variablesOf files name).run opened =
      (match files.readText (h.variablesPath name) with
        | .error .notFound => .ok (h.withHeading [])
        | .error _ => .error (.reading (h.variablesPath name))
        | .ok text =>
          match Json.read? text with
          | some (.object vars) => .ok (h.withHeading vars)
          | some _ => .error (.notObject (h.variablesPath name))
          | none => .error (.parsing (h.variablesPath name)),
        opened ++ [h.variablesPath name]) := by
  unfold PageHandler.variablesOf
  rw [run_bind, readOptional_run]
  cases files.readText (h.variablesPath name) with
  | error e => cases e <;> rfl
  | ok text =>
      cases hjson : Json.read? text with
      | none => simp only [hjson]; rfl
      | some json => cases json <;> simp only [hjson] <;> rfl

def PageFiles.ofSource : Except PageFault (Option (String × Variables)) → PageFiles
  | .ok none => .missing
  | .ok (some (script, vars)) => .usable script vars
  | .error _ => .broken

private theorem source_run (h : PageHandler) (files : Files) (name : String) :
    (PageFiles.ofSource ((h.source files name).run []).1, ((h.source files name).run []).2) =
      pageFiles h files name := by
  unfold PageHandler.source pageFiles
  rw [run_bind, readOptional_run]
  cases files.readText (h.templatePath name) with
  | error e => cases e <;> rfl
  | ok script =>
      simp only [run_bind, variablesOf_run]
      cases files.readText (h.variablesPath name) with
      | error e => cases e <;> rfl
      | ok text =>
          cases hjson : Json.read? text with
          | none => simp only [hjson]; rfl
          | some json => cases json <;> simp only [hjson] <;> rfl

@[simp] private theorem script_call_run (registry : Markup.Registry) (files : Files) (text : String)
    (rest : List String) (s : State) :
    ((Service.script text).call registry files rest).run s =
      (.ok (if rest = [] then some (.javaScript text) else none), s) := by
  cases rest <;> rfl

theorem render_answer (registry : Markup.Registry) (files : Files) (h : PageHandler)
    (name path : String) (pool : Pool Context) :
    let o := h.render registry files name pool
    ((settle path PageFault.fullMessage (o.result.map fun html => html.map (.html .ok))).1,
      o.pool, o.opened) =
        ((pageAnswer registry files pool (pageFiles h files name).1).1,
          (pageAnswer registry files pool (pageFiles h files name).1).2,
          (pageFiles h files name).2) := by
  intro o
  rw [← source_run h files name]
  have ho : o = h.render registry files name pool := rfl
  unfold PageHandler.render at ho
  rcases hsource : (h.source files name).run [] with ⟨source, opened⟩
  rw [hsource] at ho
  rcases source with e | source
  · rw [ho]
    rfl
  · rcases source with _ | ⟨script, vars⟩
    · rw [ho]
      rfl
    · simp only [ho, PageFiles.ofSource, pageAnswer]
      cases ((pool.get.1.context (.ofRegistry registry)).renderVariables files script vars).result
      · rfl
      · rfl

theorem pages_call_run (registry : Markup.Registry) (files : Files) (h : PageHandler)
    (rest : List String) (s : State) :
    ((Service.pages h).call registry files rest).run s =
      match Page.pageName? rest with
      | none => (.ok none, s)
      | some name =>
        let o := h.render registry files name s.pool
        (o.result.map fun html => html.map (.html .ok),
          ⟨o.pool, s.log ++ o.log, s.opened ++ o.opened⟩) := by
  unfold Service.call
  cases Page.pageName? rest with
  | none => rfl
  | some name =>
      have hget : (get : Serving State).run s = (.ok s, s) := rfl
      have hset (s' : State) : (set s' : Serving Unit).run s = (.ok (), s') := rfl
      simp only [run_bind, hget, hset]
      cases (h.render registry files name s.pool).result <;> rfl

/-- The handlers that a path reaches: the client script below its own name, and always the pages. -/
theorem candidates_router (c : Config) (port : Option Nat) (segments : List String) :
    (router c port).candidates segments =
      (match port, segments with
        | some port, "livereload.js" :: rest => [(.script (clientScript port), rest)]
        | _, _ => []) ++
      [(.pages ⟨c.templateDir, c.defaultHeading⟩, segments)] := by
  have hroot : Http.pathSegments "/" = [] := by decide +kernel
  have hscript : Http.pathSegments clientScriptPath = ["livereload.js"] := by decide +kernel
  cases port with
  | none =>
      unfold router Router.add
      rw [hroot]
      rfl
  | some port =>
      unfold router Router.add
      rw [hroot, hscript]
      cases segments with
      | nil => rfl
      | cons first rest =>
          by_cases hfirst : first = "livereload.js"
          · rw [hfirst]
            simp [Router.insert, Router.empty, Router.candidates, Router.restBelow?]
          · simp [Router.insert, Router.empty, Router.candidates, Router.restBelow?, hfirst,
              Ne.symm hfirst]

private theorem handle_run (app : Application) (files : Files) (r : Request) (s : State) :
    (app.handle files r).run s =
      let call : Router.Handling Service Response PageFault State :=
        fun service rest => service.call app.registry files rest
      let out := (app.router.route call r.segments).run s
      ((settle r.path PageFault.fullMessage out.1).1,
        { out.2 with log := out.2.log ++ (settle r.path PageFault.fullMessage out.1).2 }) := rfl

private theorem firstAnswer_pages (c : Config) (registry : Markup.Registry) (files : Files)
    (path : String) (segments : List String) (s : State) :
    let call : Router.Handling Service Response PageFault State :=
      fun service rest => service.call registry files rest
    let out := (Router.firstAnswer call
      [(.pages ⟨c.templateDir, c.defaultHeading⟩, segments)]).run s
    let decided := pageDecision registry c files s.pool segments
    (settle path PageFault.fullMessage out.1).1 = decided.1 ∧ out.2.pool = decided.2.1 ∧
      out.2.opened = s.opened ++ decided.2.2 := by
  intro call out decided
  have hout : out = (Router.firstAnswer call
    [(.pages ⟨c.templateDir, c.defaultHeading⟩, segments)]).run s := rfl
  have hdecided : decided = pageDecision registry c files s.pool segments := rfl
  rw [Router.run_firstAnswer_cons, pages_call_run] at hout
  unfold pageDecision at hdecided
  cases hname : Page.pageName? segments with
  | none =>
      rw [hname] at hout hdecided
      rw [hout, hdecided]
      exact ⟨rfl, rfl, (List.append_nil s.opened).symm⟩
  | some name =>
      rw [hname] at hout hdecided
      dsimp only at hout hdecided
      have hpage := render_answer registry files ⟨c.templateDir, c.defaultHeading⟩ name path s.pool
      dsimp only at hpage
      generalize PageHandler.render _ registry files name s.pool = o at hout hpage
      obtain ⟨result, pool, log, opened⟩ := o
      simp only [Prod.mk.injEq] at hpage
      rw [hdecided]
      dsimp only
      rw [← hpage.1, ← hpage.2.1, ← hpage.2.2, hout]
      cases result with
      | error e => exact ⟨rfl, rfl, rfl⟩
      | ok html => cases html <;> exact ⟨rfl, rfl, rfl⟩

theorem handle_eq_decision (c : Config) (start files : Files) (port : Option Nat) (r : Request)
    (s : State) (hmethod : ¬(r.method ≠ "GET" ∧ r.method ≠ "HEAD")) :
    let app := Application.ofConfig c start port
    let out := (app.handle files r).run s
    let decided := decision app.registry c port files s.pool r
    out.1 = decided.1 ∧ out.2.pool = decided.2.1 ∧ out.2.opened = s.opened ++ decided.2.2 := by
  intro app out decided
  have hdecided : decided = decision app.registry c port files s.pool r := rfl
  have hout : out = (app.handle files r).run s := rfl
  have hpages := firstAnswer_pages c app.registry files r.path r.segments s
  have hrouter : app.router = router c port := rfl
  unfold decision at hdecided
  rw [if_neg hmethod] at hdecided
  rw [handle_run, hrouter] at hout
  simp only [Router.route, candidates_router] at hout
  rw [hout, hdecided]
  cases port with
  | none =>
      simp only [List.nil_append]
      exact hpages
  | some port =>
      generalize r.segments = segments at hpages ⊢
      rcases segments with _ | ⟨first, rest⟩
      · simp only [List.nil_append]
        exact hpages
      · by_cases hfirst : first = "livereload.js"
        · subst hfirst
          simp only [List.cons_append, List.nil_append, Router.run_firstAnswer_cons,
            script_call_run]
          cases rest with
          | nil => exact ⟨rfl, rfl, (List.append_nil s.opened).symm⟩
          | cons second rest => exact hpages
        · simpa [hfirst] using hpages

theorem respond_handled (app : Application) (files : Files) (peer : String) {r : Request}
    (s : State) (hmethod : Application.methods.contains r.method = true) :
    let out := (app.respond files peer r).run s
    let handled := (app.handle files r).run s
    out.1 = handled.1 ∧ out.2.pool = handled.2.pool ∧ out.2.opened = handled.2.opened := by
  intro out handled
  have hout : out = (app.respond files peer r).run s := rfl
  unfold Application.respond at hout
  rw [hmethod] at hout
  rw [hout]
  exact ⟨rfl, rfl, rfl⟩

theorem respond_refused (app : Application) (files : Files) (peer : String) {r : Request}
    (s : State) (hmethod : Application.methods.contains r.method = false) :
    let out := (app.respond files peer r).run s
    out.1 = .errorPage .notImplemented ∧ out.2.pool = s.pool ∧ out.2.opened = s.opened := by
  intro out
  have hout : out = (app.respond files peer r).run s := rfl
  unfold Application.respond at hout
  rw [hmethod] at hout
  rw [hout]
  exact ⟨rfl, rfl, rfl⟩

end Pagewright.Server
