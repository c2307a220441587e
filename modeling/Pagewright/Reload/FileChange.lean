import Pagewright.Reload.Watcher

/-!
Changes of files, and what a watcher hears of them. Writing into a file or cutting it off is a write;
that a file appears empty, is renamed or removed, or changes its permissions is none.
-/
namespace Pagewright.Reload

inductive FileChange where
  /-- The whole content is replaced; the file is made if need be. -/
  | write (path : String) (data : Bytes)
  | append (path : String) (data : Bytes)
  | rename (source target : String)
  | remove (path : String)
  /-- Only what is known about the file changes. -/
  | metadata (path : String)
deriving DecidableEq, Repr

namespace FileChange

def contentOf (files : Files) (path : String) : Bytes :=
  match files.read path with
  | .ok data => data
  | .error _ => []

def applyTo (files : Files) : FileChange → Files
  | write path data => files.write path data
  | append path data => files.write path (contentOf files path ++ data)
  | rename source target =>
    let a := Files.location source
    let b := Files.location target
    if a = b then files
    else
      let kept := files.entries.filter fun (l, _) => !b.isPrefixOf l
      ⟨kept.map fun (l, e) => (Watcher.moved a b l, e)⟩
  | remove path => files.remove path
  | metadata _ => files

def written? (files : Files) : FileChange → Option Location
  | write path data =>
    if files.isFile path || !data.isEmpty then some (Files.location path) else none
  | append path data => if data.isEmpty then none else some (Files.location path)
  | _ => none

def heardBy (w : Watcher) (files : Files) (c : FileChange) : Watcher :=
  let w := match c.written? files with
    | some place => (w.writeNotices place).foldl Watcher.notify w
    | none => w
  match c with
  | rename source target => w.rename (Files.location source) (Files.location target)
  | remove path => w.remove (Files.location path)
  | _ => w

end FileChange

end Pagewright.Reload
