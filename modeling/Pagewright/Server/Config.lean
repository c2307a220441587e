import Pagewright.Files
import Pagewright.Log
import Pagewright.Markup.Registry
import Pagewright.Server.ComponentList
import Pagewright.Server.Environment

/-! What a server is started with. -/
namespace Pagewright.Server

structure Config where
  templateDir : String
  /-- The address of the pages. -/
  listenHttp : String
  /-- The address that reload clients connect to. -/
  listenReload : String
  /-- Whether browsers reload when a template is written. -/
  liveReload : Bool
  components : List ComponentSpec
  /-- How many renders a script context serves, 0 for a new one each time. -/
  contextReuse : Nat
  defaultHeading : String
deriving DecidableEq, Repr

inductive ConfigFault where
  | environment (f : EnvironmentFault)
  | component (f : SpecFault)
deriving DecidableEq, Repr

def ConfigFault.message : ConfigFault → String
  | environment f => f.message
  | component f => f.message

namespace Config

def standard : Config where
  templateDir := "templates"
  listenHttp := "127.0.0.1:1323"
  listenReload := "127.0.0.1:35729"
  liveReload := true
  components := []
  contextReuse := 20
  defaultHeading := "Welcome to Templua"

def componentsOf (env : Environment) : Except ConfigFault (List ComponentSpec) := do
  match ← (env.get? "COMPONENTS").mapError .environment with
  | none => return []
  | some text => (ComponentSpec.parseList text).mapError .component

/-- The configuration that variables give; the first fault counts. -/
def ofEnvironment (env : Environment) : Except ConfigFault Config := do
  let components ← componentsOf env
  let read {α : Type} (e : Except EnvironmentFault α) : Except ConfigFault α :=
    e.mapError .environment
  let templateDir ← read (env.getOr "TEMPLATE_DIR" (some standard.templateDir))
  let listenHttp ← read (env.getOr "LISTEN_HTTP" (some standard.listenHttp))
  let listenReload ← read (env.getOr "LISTEN_LIVERELOAD" (some standard.listenReload))
  let liveReload ← read (env.flag "LIVERELOAD" standard.liveReload)
  let contextReuse ← read (env.number "CONTEXT_REUSE" standard.contextReuse)
  return { standard with
    templateDir, listenHttp, listenReload, liveReload, components, contextReuse }

def componentsDir (c : Config) : String := Path.join c.templateDir "components"

/-- The component that is there without being configured, if its file is. -/
def standardComponent (c : Config) : ComponentSpec :=
  ⟨"Card", Path.join c.componentsDir "card.lua"⟩

/-- The components to register: those configured, or else the standard one. -/
def effectiveComponents (c : Config) (files : Files) : List ComponentSpec :=
  if !c.components.isEmpty then c.components
  else if files.isFile c.standardComponent.path then [c.standardComponent]
  else []

def registry (c : Config) (files : Files) : Markup.Registry :=
  (c.effectiveComponents files).foldl (fun r s => r.registerCustom s.name s.path) .standard

def registryLog (c : Config) (files : Files) : List LogRecord :=
  (c.effectiveComponents files).map fun s =>
    ⟨.info, "registering custom component " ++ s.name ++ " from " ++ Text.quotePath s.path⟩

end Config

end Pagewright.Server
