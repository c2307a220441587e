import Pagewright.Server.Config

/-! Options of the command line, which go before the environment. -/
namespace Pagewright.Server

structure Options where
  templateDir : Option String
  listenHttp : Option String
  listenReload : Option String
  noReload : Bool
  /-- The texts of components, in their order. -/
  components : List String
deriving DecidableEq, Repr

inductive OptionFault where
  | unknown (word : String)
  | missingValue (option : String)
  | repeated (option : String)
deriving DecidableEq, Repr

def OptionFault.message : OptionFault → String
  | unknown word => "unexpected argument " ++ Text.quote word
  | missingValue option => option ++ " needs a value"
  | repeated option => option ++ " cannot be given more than once"

namespace Options

def empty : Options := ⟨none, none, none, false, []⟩

/-- Sets what can be set once. -/
def once (option : String) (old : Option String) (value : String) :
    Except OptionFault (Option String) :=
  match old with
  | some _ => .error (.repeated option)
  | none => .ok (some value)

def valued : List String := ["--templates", "--listen", "--livereload-listen", "--component"]

def set (o : Options) (option value : String) : Except OptionFault Options :=
  match option with
  | "--templates" => return { o with templateDir := ← once option o.templateDir value }
  | "--listen" => return { o with listenHttp := ← once option o.listenHttp value }
  | "--livereload-listen" => return { o with listenReload := ← once option o.listenReload value }
  | "--component" => return { o with components := o.components ++ [value] }
  | _ => throw (.unknown option)

def parse (o : Options) : List String → Except OptionFault Options
  | [] => .ok o
  | "--no-livereload" :: words =>
    if o.noReload then .error (.repeated "--no-livereload")
    else parse { o with noReload := true } words
  | [word] => .error (if valued.contains word then .missingValue word else .unknown word)
  | word :: value :: words =>
    match o.set word value with
    | .error e => .error e
    | .ok o => parse o words

def applyTo (o : Options) (c : Config) : Except SpecFault Config := do
  let components ←
    if o.components.isEmpty then pure c.components else o.components.mapM ComponentSpec.parse
  return { c with
    templateDir := o.templateDir.getD c.templateDir
    listenHttp := o.listenHttp.getD c.listenHttp
    listenReload := o.listenReload.getD c.listenReload
    liveReload := c.liveReload && !o.noReload
    components }

end Options

end Pagewright.Server
