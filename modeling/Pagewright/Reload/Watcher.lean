import Pagewright.Files
import Pagewright.Reload.WatchEvent
import Pagewright.Text.Quoted

/-!
Watching directories. Notices wait in a queue until the watcher's worker takes them, in their order;
closing stops the watching and works off what is queued.
-/
namespace Pagewright.Reload

/-- A watched place, with the path it was named by. It stays watched where it is moved to. -/
structure Watch where
  place : Location
  path : String
deriving DecidableEq, Repr

inductive WatchFault where
  | closed
  /-- The directory cannot be watched. -/
  | unwatchable (dir : String)
deriving DecidableEq, Repr

def WatchFault.message : WatchFault → String
  | closed => "file watcher already closed"
  | unwatchable dir => "watching directory " ++ Text.quotePath dir

structure Watcher where
  watches : List Watch
  /-- Notices that the worker has not taken yet. -/
  queue : List Notice
  isOpen : Bool
deriving Repr

namespace Watcher

def start : Watcher := ⟨[], [], true⟩

def watch (w : Watcher) (files : Files) (dir : String) : Except WatchFault Watcher :=
  if !w.isOpen then .error .closed
  else match files.resolve dir with
    | .ok (some place, _) =>
      .ok { w with watches := ⟨place, dir⟩ :: w.watches.filter fun x => x.place ≠ place }
    | _ => .error (.unwatchable dir)

def notify (w : Watcher) (n : Notice) : Watcher :=
  if w.isOpen then { w with queue := w.queue ++ [n] } else w

def work (w : Watcher) : Option Notice × Watcher :=
  match w.queue with
  | [] => (none, w)
  | n :: rest => (some n, { w with queue := rest })

/-- Stops the watching; the notices that were still queued are worked off. -/
def close (w : Watcher) : List Notice × Watcher :=
  (w.queue, ⟨[], [], false⟩)

/-! What changes of the files lead to. -/

/-- The path by which a place is reported, if it is watched: as an entry of a watched directory, or
as a watched file itself. -/
def reported (w : Watcher) (place : Location) : List String :=
  w.watches.filterMap fun x =>
    if x.place = place then some x.path
    else if x.place = place.dropLast then (place.getLast?).map (Path.join x.path)
    else none

def writeNotices (w : Watcher) (place : Location) : List Notice :=
  (w.reported place).map fun path => .ok ⟨.modify .data, [path]⟩

def moved (source target place : Location) : Location :=
  if source.isPrefixOf place then target ++ place.drop source.length else place

def rename (w : Watcher) (source target : Location) : Watcher :=
  { w with watches := w.watches.map fun x => { x with place := moved source target x.place } }

def remove (w : Watcher) (place : Location) : Watcher :=
  { w with watches := w.watches.filter fun x => !place.isPrefixOf x.place }

end Watcher

end Pagewright.Reload
