import Pagewright.Http.Response
import Pagewright.Http.Router
import Pagewright.Page.Handler
import Pagewright.Server.ClientScript
import Pagewright.Server.Config

/-!
What a server answers. Every request gets a response: one that no handler takes the page for what is
not found, a failure the page for internal errors, with the reason in the log only.
-/
namespace Pagewright.Server

open Http (Request Response Router Status)
open Page (Context PageFault PageHandler Pool)

inductive Service where
  /-- A script at its mount point alone. -/
  | script (text : String)
  | pages (handler : PageHandler)
deriving DecidableEq, Repr

/-- What requests change: the waiting contexts, the log, and which files were opened for pages. -/
structure State where
  pool : Pool Context
  log : List LogRecord
  opened : List String

def State.ofPool (pool : Pool Context) : State := ⟨pool, [], []⟩

abbrev Serving := ExceptT PageFault (StateM State)

/-- The answer of a service for the segments below its mount point; none refuses. -/
def Service.call (registry : Markup.Registry) (files : Files) (rest : List String) :
    Service → Serving (Option Response)
  | .script text => return if rest.isEmpty then some (.javaScript text) else none
  | .pages h => do
    match Page.pageName? rest with
    | none => return none
    | some name =>
      let s ← get
      let o := h.render registry files name s.pool
      set (⟨o.pool, s.log ++ o.log, s.opened ++ o.opened⟩ : State)
      match o.result with
      | .ok html => return html.map (.html .ok)
      | .error f => throw f

def router (c : Config) (reloadPort : Option Nat) : Router Service :=
  let pages := Service.pages ⟨c.templateDir, c.defaultHeading⟩
  let scripts : Router Service := match reloadPort with
    | some port => Router.empty.add clientScriptPath (Service.script (clientScript port))
    | none => Router.empty
  scripts.add "/" pages

def failureRecord (path reason : String) : LogRecord :=
  ⟨.error, "error in page (returning " ++ Status.logName .internalError ++ "): handling "
    ++ Text.quote path ++ ": " ++ reason⟩

def settle {ε : Type} (path : String) (reason : ε → String) :
    Except ε (Option Response) → Response × List LogRecord
  | .ok (some r) => (r, [])
  | .ok none => (.errorPage .notFound, [])
  | .error e => (.errorPage .internalError, [failureRecord path (reason e)])

def accessRecord (peer : String) (r : Request) (code : Nat) : LogRecord :=
  ⟨.info, peer ++ " " ++ r.method ++ " " ++ r.target ++ " -> " ++ Decimal.intText code⟩

/-- A server without its sockets. -/
structure Application where
  registry : Markup.Registry
  router : Router Service

namespace Application

def ofConfig (c : Config) (files : Files) (reloadPort : Option Nat) : Application :=
  ⟨c.registry files, Server.router c reloadPort⟩

def methods : List String := ["GET", "HEAD"]

def handle (app : Application) (files : Files) (r : Request) : StateM State Response := do
  let call : Service → List String → Serving (Option Response) := fun service rest =>
    service.call app.registry files rest
  let result ← (app.router.route call r.segments).run
  let (response, log) := settle r.path PageFault.fullMessage result
  modify fun s => { s with log := s.log ++ log }
  return response

def respond (app : Application) (files : Files) (peer : String) (r : Request) :
    StateM State Response := do
  let response ←
    if methods.contains r.method then app.handle files r
    else do
      let warning : LogRecord := ⟨.warn, "method " ++ Text.quote r.method ++ " not implemented"⟩
      modify fun s => { s with log := s.log ++ [warning] }
      pure (.errorPage .notImplemented)
  modify fun s => { s with log := s.log ++ [accessRecord peer r response.status.code] }
  return response

end Application

end Pagewright.Server
