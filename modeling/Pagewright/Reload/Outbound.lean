import Pagewright.Reload.Connections

/-!
The frames for one client. Whoever knows the client puts frames into its queue; they are written in
passes, in their order, and none that stands after a close.
-/
namespace Pagewright.Reload

inductive Frame where
  | text (s : String)
  | ping
  | close
deriving DecidableEq, Repr

structure Outbound where
  /-- The client's address. -/
  peer : String
  queue : List Frame
  /-- Whether the client is still served. -/
  isServed : Bool
  /-- Whether somebody can still put frames here. -/
  isHeld : Bool
deriving DecidableEq, Repr

inductive PassEnd where
  /-- All that was queued is written. -/
  | caughtUp
  /-- A close is asked for, or no frame can come any more. -/
  | closing
  /-- A frame could not be written. -/
  | failed
deriving DecidableEq, Repr

structure Pass where
  written : List Frame
  ending : PassEnd
  rest : List Frame
deriving DecidableEq, Repr

/-- Writes frames up to the first close. After as many as `capacity` says, writing fails. -/
def Pass.over (isHeld : Bool) : Option Nat → List Frame → Pass
  | _, [] => ⟨[], if isHeld then .caughtUp else .closing, []⟩
  | _, .close :: rest => ⟨[], .closing, rest⟩
  | some 0, _ :: rest => ⟨[], .failed, rest⟩
  | capacity, f :: rest =>
    let p := Pass.over isHeld (capacity.map (· - 1)) rest
    { p with written := f :: p.written }

namespace Outbound

def ofPeer (peer : String) : Outbound := ⟨peer, [], true, true⟩

def put (o : Outbound) (f : Frame) : Outbound :=
  if o.isServed then { o with queue := o.queue ++ [f] } else o

def frameOf {α : Type} : Action α → Frame
  | .send _ text => .text text
  | .close _ => .close

def write (o : Outbound) (capacity : Option Nat) : Pass × Outbound :=
  let p := Pass.over o.isHeld capacity o.queue
  (p, { o with queue := p.rest })

end Outbound

end Pagewright.Reload
