import Pagewright.Server.Address

/-!
Addresses on a machine's network. Those where one listens are the machine's own affair; whether a
connection finds its way to a listener is up to the network, of which a machine without any interface has
none to offer.
-/
namespace Pagewright.Server

def firstFreePort : Nat := 49152

/-- Listens at an address, beside those where others do. A port that is left open is a free one. -/
def listen (others : List Address) (text : String) : Option Address :=
  (Address.ofText? text).bind fun a =>
    let a := if a.port = 0 then { a with port := firstFreePort + others.length } else a
    if a.isListenable && !others.any a.clashes then some a else none

inductive NetworkFault where
  /-- There is no route to the address. -/
  | unreachable
deriving DecidableEq, Repr

def NetworkFault.message : NetworkFault → String
  | unreachable => "Network is unreachable (os error 101)"

/-- A network, by what comes of a connection to an address. -/
structure Network where
  Connection : Type
  connect : Address → Except NetworkFault Connection

def Network.isolated : Network := ⟨Empty, fun _ => .error .unreachable⟩

def connect (target : Address) (network : Network := .isolated) :
    Except NetworkFault network.Connection :=
  network.connect target

end Pagewright.Server
