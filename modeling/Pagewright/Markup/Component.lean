import Pagewright.Markup.ValueText
import Pagewright.Script.Chunk
import Pagewright.Text.Quoted

/-!
Components: a file gives a function, and what that returns for some properties is written as an
element with a shadow root. A component that fails writes nothing, and one warning says why.
-/
namespace Pagewright.Markup

open Script (Value Table Eval Callback)

structure ComponentDefinition where
  name : String
  styles : String
  content : List String
deriving DecidableEq, Repr

namespace ComponentDefinition

/-- The definition in the result of a component: a table with a name and a table as its template. -/
def ofResult? (tables : Nat → Table) (result : Value) : Option ComponentDefinition :=
  let field (t : Table) (key : String) : Value := t.get (Value.ofText key)
  match result with
  | .table r =>
    match valueText? (field (tables r) "name"), field (tables r) "template" with
    | some name, .table t =>
      let template := tables t
      let content := match field template "content" with
        | .table c => (tables c).sequence.filterMap valueText?
        | _ => []
      some ⟨name, (valueText? (field template "styles")).getD "", content⟩
    | _, _ => none
  | _ => none

def html (d : ComponentDefinition) : String :=
  "<" ++ d.name ++ ">\n  <template shadowrootmode=\"open\">\n    <style>" ++ d.styles
    ++ "</style>\n    " ++ "\n    ".intercalate d.content ++ "\n  </template>\n</" ++ d.name ++ ">"

end ComponentDefinition

inductive ComponentFault where
  /-- The file cannot be read as text. -/
  | unreadable
  /-- The file is no script, or running it raised an error. -/
  | unloadable
  /-- The value of the file is of another kind. -/
  | noFunction (kind : String)
  | callFailed
  /-- The function did not return a definition. -/
  | noDefinition
deriving DecidableEq, Repr

def ComponentFault.warning (f : ComponentFault) (name loader : String) : String :=
  let path := Text.quotePath loader
  let error (reason : String) : String :=
    "error in custom element " ++ Text.quote name ++ ": " ++ reason
  match f with
  | unreadable => error ("reading component file " ++ path)
  | unloadable => error ("loading component file " ++ path)
  | noFunction kind =>
    error ("component file " ++ path ++ " evaluated to a " ++ kind ++ ", not a function")
  | callFailed => error ("calling component from " ++ path)
  | noDefinition => "invalid result from custom element " ++ Text.quote name ++ " (" ++ path ++ ")"

namespace Component

/-- The value of an evaluation, none if it raised an error. Used-up fuel is no error. -/
def attempt {α : Type} (e : Eval α) : Eval (Option α) :=
  tryCatch (some <$> e) fun
    | .exhausted => throw .exhausted
    | _ => return none

def load (call : Callback) (source : String) (loader : String) : Eval (Option Value) := do
  let env ← Script.Chunk.newEnvironment
  match ← Script.Chunk.loadValue (Bytes.ofText source) (Bytes.ofText ("@" ++ loader)) env with
  | .error _ => return none
  | .ok f => return (← attempt (call f [])).map (·.headD .nil)

/-- Calls a component's function; properties that are no table are an empty one. -/
def apply (call : Callback) (f : Value) (props : Option Value) : Eval (Option Value) := do
  let props ← match props with
    | some (.table r) => pure (.table r)
    | _ => Eval.newTable Table.empty
  return (← attempt (call f [props])).map (·.headD .nil)

def define (call : Callback) (loader : String) (props : Option Value) :
    Eval (Except ComponentFault ComponentDefinition) := do
  match (← get).files.readText loader with
  | .error _ => return .error .unreadable
  | .ok source =>
    match ← load call source loader with
    | none => return .error .unloadable
    | some f =>
      if !f.isFunction then return .error (.noFunction f.kindName)
      else match ← apply call f props with
        | none => return .error .callFailed
        | some result =>
          let tables := (← get).heap.table
          match ComponentDefinition.ofResult? tables result with
          | some d => return .ok d
          | none => return .error .noDefinition

def render (call : Callback) (name loader : String) (props : Option Value) : Eval String := do
  match ← define call loader props with
  | .ok d => return d.html
  | .error f =>
    Eval.report .warn (f.warning name loader)
    return ""

end Component

end Pagewright.Markup
