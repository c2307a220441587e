import Pagewright.Text.Blank
import Pagewright.Text.Quoted
import Pagewright.Text.Split

/-!
Components as they are configured: a name and a path with an equals sign between them, several of
them with commas. Names can be written in scripts.
-/
namespace Pagewright.Server

structure ComponentSpec where
  name : String
  path : String
deriving DecidableEq, Repr

inductive SpecProblem where
  | noEquals
  | emptyPart
  | invalidCharacter
  | leadingDigit
deriving DecidableEq, Repr

structure SpecFault where
  text : String
  problem : SpecProblem
deriving DecidableEq, Repr

def SpecProblem.message : SpecProblem → String
  | noEquals => "expecting NAME=PATH"
  | emptyPart => "empty name or path"
  | invalidCharacter => "name must be a valid Lua identifier"
  | leadingDigit => "name must not start with a digit"

def SpecFault.message (f : SpecFault) : String :=
  "component " ++ Text.quote f.text ++ ": " ++ f.problem.message

def isIdentifierChar (c : Char) : Bool := c.isAlphanum || c = '_'

/-- The parts before and after the first equals sign. -/
def splitEquals? : List Char → Option (List Char × List Char)
  | [] => none
  | '=' :: cs => some ([], cs)
  | c :: cs => (splitEquals? cs).map fun (a, b) => (c :: a, b)

namespace ComponentSpec

def parse (text : String) : Except SpecFault ComponentSpec :=
  let fail (p : SpecProblem) : Except SpecFault ComponentSpec := .error ⟨text, p⟩
  match splitEquals? text.toList with
  | none => fail .noEquals
  | some (name, path) =>
    let name := Text.trimChars name
    let path := Text.trimChars path
    if name.isEmpty || path.isEmpty then fail .emptyPart
    else if !name.all isIdentifierChar then fail .invalidCharacter
    else if (name.head?.any Char.isDigit) then fail .leadingDigit
    else .ok ⟨String.ofList name, String.ofList path⟩

def isBlankText (s : String) : Bool := s.toList.all Text.isBlank

/-- Reads components with commas between them; blank ones do not count. -/
def parseList (text : String) : Except SpecFault (List ComponentSpec) :=
  ((Text.split ',' text).filter fun part => !isBlankText part).mapM parse

end ComponentSpec

end Pagewright.Server
