import Pagewright.Number.Decimal
import Pagewright.Server.Environment
import Pagewright.Text.Split

/-! Addresses to listen on: a host and a port with a colon between them. -/
namespace Pagewright.Server

structure Address where
  host : String
  port : Nat
deriving DecidableEq, Repr

namespace Address

def greatestPort : Nat := 65535

def text (a : Address) : String := a.host ++ ":" ++ Decimal.intText a.port

/-- The address of a text; the port follows the last colon. -/
def ofText? (text : String) : Option Address :=
  match (Text.split ':' text).reverse with
  | port :: host :: more =>
    match parseNumber port with
    | .ok p => if p ≤ greatestPort then some ⟨":".intercalate (host :: more).reverse, p⟩ else none
    | .error _ => none
  | _ => none

def isOctet (s : String) : Bool :=
  (s = "0" || s.toList.head? ≠ some '0') && match parseNumber s with
    | .ok n => n ≤ 255 && s.toList.all Char.isDigit
    | .error _ => false

def isDotted (host : String) : Bool :=
  match Text.split '.' host with
  | [w, x, y, z] => [w, x, y, z].all isOctet
  | _ => false

def wildcards : List String := ["0.0.0.0", "[::]"]

/-- Whether one can listen there. No name but the machine's own is resolved. -/
def isListenable (a : Address) : Bool :=
  isDotted a.host || ["localhost", "[::]"].contains a.host

/-- Whether two listeners would take each other's connections. -/
def clashes (a b : Address) : Bool :=
  a.port = b.port && (a.host = b.host || wildcards.contains a.host || wildcards.contains b.host)

end Address

end Pagewright.Server
