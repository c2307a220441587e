import Pagewright.Log

/-! What a watched directory reports, and which of it is a write. -/
namespace Pagewright.Reload

inductive Modification where
  /-- It is not known what. -/
  | any
  | data
  | metadata
  | name
  | other
deriving DecidableEq, Repr

inductive EventKind where
  | any
  | access
  | create
  | modify (m : Modification)
  | remove
  | other
deriving DecidableEq, Repr

structure WatchEvent where
  kind : EventKind
  paths : List String
deriving DecidableEq, Repr

/-- An event, or the text of an error instead. -/
abbrev Notice := Except String WatchEvent

/-- Only a change of contents is a write: making, removing or renaming a file is none. -/
def WatchEvent.isWrite (e : WatchEvent) : Bool :=
  match e.kind with
  | .modify .data | .modify .any => true
  | _ => false

namespace Notice

def write? : Notice → Option WatchEvent
  | .ok e => if e.isWrite then some e else none
  | .error _ => none

def log : Notice → List LogRecord
  | .ok _ => []
  | .error text => [⟨.warn, "error watching files: " ++ text⟩]

end Notice

end Pagewright.Reload
