import Pagewright.Reload.Connections
import Pagewright.Reload.Watcher

/-! A watcher whose writes are told to all connections. -/
namespace Pagewright.Reload

structure LiveReload (α : Type) where
  connections : Connections α
  watcher : Watcher

namespace LiveReload

variable {α : Type}

def start : LiveReload α × List LogRecord :=
  (⟨.empty, .start⟩, [⟨.info, "live reload initialized"⟩])

def pathsText (paths : List String) : String :=
  "[" ++ ", ".intercalate (paths.map Text.quotePath) ++ "]"

def watchDirectory (l : LiveReload α) (files : Files) (dir : String) :
    Except WatchFault (LiveReload α) × List LogRecord :=
  ((l.watcher.watch files dir).map fun watcher => { l with watcher },
    [⟨.info, "watching directory " ++ Text.quotePath dir ++ " for changes"⟩])

/-- The worker's part: a write is told to every connection, any other notice to none. -/
def react (c : Connections α) (failure : α → Option String) (n : Notice) :
    Change α (Option BroadcastReport) :=
  match n.write? with
  | none => ⟨none, c, [], n.log⟩
  | some e =>
    let b := c.broadcast failure reloadMessage
    { answer := some b.answer
      connections := b.connections
      actions := b.actions
      log := ⟨.info, "file modified: " ++ pathsText e.paths⟩ :: b.log }

def work (l : LiveReload α) (failure : α → Option String) :
    LiveReload α × List (Action α) × List LogRecord :=
  match l.watcher.work with
  | (none, _) => (l, [], [])
  | (some n, watcher) =>
    let c := react l.connections failure n
    (⟨c.connections, watcher⟩, c.actions, c.log)

/-- Closes all connections, then the watcher; the notices still queued find nobody to tell. -/
def close (l : LiveReload α) : LiveReload α × List (Action α) × List LogRecord :=
  let closed := l.connections.closeAll
  let (notices, watcher) := l.watcher.close
  let log := notices.flatMap fun n => (react closed.connections (fun _ => none) n).log
  (⟨closed.connections, watcher⟩, closed.actions, log)

end LiveReload

end Pagewright.Reload
