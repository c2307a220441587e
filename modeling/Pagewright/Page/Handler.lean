import Pagewright.Json.Reader
import Pagewright.Page.Context
import Pagewright.Page.Pool

/-!
Pages: a template of the directory, rendered with the variables of the file beside it. A page whose
template does not exist is none; every other failure has a cause.
-/
namespace Pagewright.Page

def homePage : String := "home"

def isNameChar (c : Char) : Bool := c.isAlphanum || c = '_' || c = '-'

/-- The page that path segments name: none but the root and single plain names. -/
def pageName? : List String → Option String
  | [] => some homePage
  | [name] => if !name.isEmpty && name.toList.all isNameChar then some name else none
  | _ => none

inductive PageFault where
  /-- A file is there but cannot be read as text. -/
  | reading (path : String)
  /-- A file is no JSON. -/
  | parsing (path : String)
  /-- A file is JSON but no object. -/
  | notObject (path : String)
  | rendering (path : String) (fault : RenderFault)
deriving DecidableEq, Repr

namespace PageFault

def message : PageFault → String
  | reading path => "reading " ++ Text.quotePath path
  | parsing path => "parsing " ++ Text.quotePath path
  | notObject path => Text.quotePath path ++ " does not contain a JSON object"
  | rendering path _ => "rendering " ++ Text.quotePath path

def fullMessage (f : PageFault) : String :=
  match f with
  | rendering _ cause => f.message ++ ": " ++ cause.message
  | f => f.message

end PageFault

/-- Reading of files, which may fail. The state is the paths opened so far, in their order. -/
abbrev Reading := ExceptT PageFault (StateM (List String))

def readOptional (files : Files) (path : String) : Reading (Option String) := do
  modify (· ++ [path])
  match files.readText path with
  | .ok s => return some s
  | .error .notFound => return none
  | .error _ => throw (.reading path)

structure PageHandler where
  templateDir : String
  defaultHeading : String
deriving DecidableEq, Repr

namespace PageHandler

def templatePath (h : PageHandler) (name : String) : String :=
  Path.join h.templateDir (name ++ ".lua")

def variablesPath (h : PageHandler) (name : String) : String :=
  Path.join h.templateDir (name ++ ".json")

def withHeading (h : PageHandler) (vars : Variables) : Variables :=
  if (vars.get? "heading").isSome then vars else vars.insert "heading" (.string h.defaultHeading)

def variablesOf (h : PageHandler) (files : Files) (name : String) : Reading Variables := do
  let path := h.variablesPath name
  match ← readOptional files path with
  | none => return h.withHeading []
  | some text =>
    match Json.read? text with
    | none => throw (.parsing path)
    | some (.object vars) => return h.withHeading vars
    | some _ => throw (.notObject path)

def source (h : PageHandler) (files : Files) (name : String) :
    Reading (Option (String × Variables)) := do
  match ← readOptional files (h.templatePath name) with
  | none => return none
  | some script => return some (script, ← h.variablesOf files name)

structure Outcome where
  result : Except PageFault (Option String)
  pool : Pool Context
  log : List LogRecord
  /-- The template and the file of variables, as far as they were opened. -/
  opened : List String

def render (h : PageHandler) (registry : Markup.Registry) (files : Files) (name : String)
    (pool : Pool Context) : Outcome :=
  let (source, opened) := (h.source files name).run []
  match source with
  | .error e => ⟨.error e, pool, [], opened⟩
  | .ok none => ⟨.ok none, pool, [], opened⟩
  | .ok (some (script, vars)) =>
    let (guard, pool) := pool.get
    let r := (guard.context (.ofRegistry registry)).renderVariables files script vars
    let pool := pool.drop Context.renders (.holding r.context)
    let result := match r.result with
      | .ok html => .ok (some html)
      | .error f => .error (.rendering (h.templatePath name) f)
    ⟨result, pool, r.log, opened⟩

def description (h : PageHandler) : String :=
  "PageHandler \x7b template_dir: " ++ Text.quotePath h.templateDir ++ " \x7d"

end PageHandler

end Pagewright.Page
