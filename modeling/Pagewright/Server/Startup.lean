import Pagewright.Reload.LiveReload
import Pagewright.Server.Address
import Pagewright.Server.Service

/-!
Starting a server. Live reload comes first: the template directory and the components in it are
watched and the clients' listener is bound; the pages' listener is bound last. The first that fails
ends the start.
-/
namespace Pagewright.Server

open Reload (LiveReload WatchFault)

inductive StartFault where
  | watching (f : WatchFault)
  | bindingReload (address : String)
  | bindingPages (address : String)
deriving DecidableEq, Repr

def StartFault.message : StartFault → String
  | watching f => f.message
  | bindingReload address => "binding live reload listener to " ++ Text.quote address
  | bindingPages address => "starting server on " ++ Text.quote address

structure Running (α : Type) where
  application : Application
  state : State
  /-- Where pages are asked for. -/
  listener : Address
  /-- What clients are told of, and where they connect to. -/
  reload : Option (LiveReload α × Address)

namespace Running

variable {α : Type}

def watchTemplates (c : Config) (files : Files) (l : LiveReload α) :
    Except StartFault (LiveReload α) × List LogRecord :=
  let (first, log) := l.watchDirectory files c.templateDir
  match first.mapError .watching with
  | .error e => (.error e, log)
  | .ok l =>
    if files.isDirectory c.componentsDir then
      let (second, more) := l.watchDirectory files c.componentsDir
      (second.mapError .watching, log ++ more)
    else (.ok l, log)

abbrev Listen := List Address → String → Option Address

def startReload (listen : Listen) (c : Config) (files : Files) :
    Except StartFault (LiveReload α × Address) × List LogRecord :=
  let (l, log) := LiveReload.start
  let (watching, more) := watchTemplates c files l
  let log := log ++ more
  match watching, listen [] c.listenReload with
  | .error e, _ => (.error e, log)
  | .ok _, none => (.error (.bindingReload c.listenReload), log)
  | .ok l, some a =>
    let record : LogRecord := ⟨.info, "live reload listening on ws://" ++ a.text ++ "/"⟩
    (.ok (l, a), log ++ [record])

def start (listen : Listen) (c : Config) (files : Files) :
    Except StartFault (Running α) × List LogRecord :=
  let (reload, log) : Except StartFault (Option (LiveReload α × Address)) × List LogRecord :=
    if c.liveReload then
      let (r, log) := startReload listen c files
      (r.map some, log)
    else (.ok none, [])
  match reload with
  | .error e => (.error e, log)
  | .ok reload =>
    let log := log ++ c.registryLog files
    let reloadAddress := reload.map (·.2)
    match listen reloadAddress.toList c.listenHttp with
    | none => (.error (.bindingPages c.listenHttp), log)
    | some listener =>
      let record : LogRecord := ⟨.info, "serving " ++ Text.quotePath c.templateDir
        ++ " on http://" ++ listener.text ++ "/"⟩
      (.ok { application := .ofConfig c files (reloadAddress.map (·.port))
             state := .ofPool (.new c.contextReuse)
             listener, reload },
        log ++ [record])

end Running

end Pagewright.Server
