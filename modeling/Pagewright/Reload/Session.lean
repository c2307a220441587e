import Pagewright.Reload.Outbound

/-!
Serving one client. Rounds of writing and reading go on until the client is closed or gone, sends too
much or nothing for too long; then its registration ends.
-/
namespace Pagewright.Reload

inductive Inbound where
  /-- A frame came; none of them asks for anything. -/
  | activity
  /-- Nothing came for some milliseconds. -/
  | silence (duration : Nat)
  /-- A message of so many bytes, which are too many. -/
  | tooLong (size : Nat)
  | gone
deriving DecidableEq, Repr

inductive Ending where
  | closed
  | writeFailed
  | inactive
  | tooLong (size : Nat)
  | gone
deriving DecidableEq, Repr

structure Session where
  id : Nat
  peer : String
  /-- For how many milliseconds nothing came. -/
  quiet : Nat
deriving DecidableEq, Repr

namespace Session

def longestMessage : Nat := 512

/-- A client that was silent for so many milliseconds is given up. -/
def patience : Nat := 60000

def accept (c : Connections Outbound) (peer : String) : Change Outbound Nat × Session :=
  let c := c.register (.ofPeer peer)
  (c, ⟨c.answer, peer, 0⟩)

def round (s : Session) (wrote : PassEnd) (read : Inbound) : Except Ending Session :=
  match wrote, read with
  | .closing, _ => .error .closed
  | .failed, _ => .error .writeFailed
  | .caughtUp, .activity => .ok { s with quiet := 0 }
  | .caughtUp, .silence duration =>
    if s.quiet + duration < patience then .ok { s with quiet := s.quiet + duration }
    else .error .inactive
  | .caughtUp, .tooLong size => .error (.tooLong size)
  | .caughtUp, .gone => .error .gone

def serve (s : Session) : List (PassEnd × Inbound) → Except Ending Session
  | [] => .ok s
  | (wrote, read) :: rounds =>
    match s.round wrote read with
    | .ok s => s.serve rounds
    | .error e => .error e

def endingLog (s : Session) : Ending → List LogRecord
  | .inactive => [⟨.info, "reload client " ++ s.peer ++ " inactive, closing"⟩]
  | .tooLong size =>
    [⟨.warn, "reload client " ++ s.peer ++ ": Message too long: " ++ Decimal.intText size ++ " > "
      ++ Decimal.intText longestMessage ++ ", closing"⟩]
  | _ => []

def finish {α : Type} (s : Session) (c : Connections α) (e : Ending) : Change α Bool :=
  let removed := c.unregister s.id
  { removed with log := s.endingLog e ++ removed.log }

end Session

end Pagewright.Reload
