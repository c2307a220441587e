import Pagewright.Proofs.Delivery
import Pagewright.Proofs.WatcherThreads
import Pagewright.Reload.LiveReload

/-!
Which reloads reach a connection. The threads of the watcher and those that use the connections take
their steps in any order; when the worker deals with a write, it tells all connections in one step.
-/
namespace Pagewright.Reload

open List

variable {α : Type}

inductive ReloadStep (α : Type) where
  /-- Something is done with the connections. Only the worker tells them anything. -/
  | operate (op : Operation α) (silent : op.message? = none)
  /-- A step with the watcher. If it deals with a write, the order is that in which the connections
  are told of it, and the failure why telling one fails. -/
  | thread (st : WatchStep) (order : Traversal α) (failure : Entry α → Option String)

namespace ReloadStep

def watchStep? : ReloadStep α → Option WatchStep
  | .operate _ _ => none
  | .thread st _ _ => some st

/-- An entry can be sent what it is told in a step. -/
def Reaches (e : Entry α) : ReloadStep α → Prop
  | .operate _ _ => True
  | .thread _ _ failure => failure e = none

end ReloadStep

structure Reloading (α : Type) where
  history : History α
  watching : Watching

namespace Reloading

def start : Reloading α := ⟨.start, .start⟩

def handles? (r : Reloading α) (st : ReloadStep α) : Option Notice :=
  st.watchStep?.bind r.watching.handles?

def operation? (r : Reloading α) : ReloadStep α → Option (Operation α)
  | .operate op _ => some op
  | .thread st order failure =>
    ((r.watching.handles? st).bind Notice.write?).map fun _ =>
      .broadcast order failure reloadMessage

def step (r : Reloading α) (st : ReloadStep α) : Reloading α :=
  ⟨(r.operation? st).elim r.history r.history.step, st.watchStep?.elim r.watching r.watching.step⟩

def after (r : Reloading α) (steps : List (ReloadStep α)) : Reloading α := steps.foldl step r

def operations (r : Reloading α) : List (ReloadStep α) → List (Operation α)
  | [] => []
  | st :: steps => (r.operation? st).toList ++ (r.step st).operations steps

def serves (r : Reloading α) (id : Nat) : Bool :=
  r.history.connections.entries.any fun e => e.id = id

/-- The notices that are dealt with while an entry of an id is there. -/
def heard (id : Nat) (r : Reloading α) : List (ReloadStep α) → List Notice
  | [] => []
  | st :: steps =>
    (if r.serves id then (r.handles? st).toList else []) ++ (r.step st).heard id steps

def reloads (notices : List Notice) : List String :=
  (notices.filterMap Notice.write?).map fun _ => reloadMessage

@[simp] theorem after_append (r : Reloading α) (steps later : List (ReloadStep α)) :
    r.after (steps ++ later) = (r.after steps).after later :=
  foldl_append

theorem watching_after (r : Reloading α) (steps : List (ReloadStep α)) :
    (r.after steps).watching = r.watching.after (steps.filterMap ReloadStep.watchStep?) := by
  induction steps generalizing r with
  | nil => rfl
  | cons st steps ih =>
    refine (ih (r.step st)).trans ?_
    cases st <;> rfl

@[simp] private theorem history_after (r : Reloading α) (steps : List (ReloadStep α)) :
    (r.after steps).history = (r.operations steps).foldl History.step r.history := by
  induction steps generalizing r with
  | nil => rfl
  | cons st steps ih =>
    refine (ih (r.step st)).trans ?_
    rw [operations, foldl_append, step]
    cases r.operation? st <;> rfl

@[simp] theorem reloads_append (notices later : List Notice) :
    reloads (notices ++ later) = reloads notices ++ reloads later := by
  simp [reloads]

theorem message_operation? (r : Reloading α) (st : ReloadStep α) :
    ((r.operation? st).bind Operation.message?).toList = reloads (r.handles? st).toList := by
  cases st with
  | operate op silent => exact congrArg Option.toList silent
  | thread st order failure =>
    cases hhandles : r.watching.handles? st with
    | none => simp [operation?, handles?, ReloadStep.watchStep?, hhandles, reloads]
    | some n =>
      cases hwrite : n.write? <;>
        simp [operation?, handles?, ReloadStep.watchStep?, hhandles, hwrite, reloads,
          Operation.message?]

@[simp] private theorem handled_step (r : Reloading α) (st : ReloadStep α) :
    (r.step st).watching.handled = r.watching.handled ++ (r.handles? st).toList := by
  cases st with
  | operate op silent => simp [step, handles?, ReloadStep.watchStep?]
  | thread st order failure => exact (r.watching.step_record st).2.1

/-- The connections are told of every write that was dealt with, once and in order, and of nothing
else. -/
theorem reloads_handled (r : Reloading α) (steps : List (ReloadStep α)) :
    reloads (r.after steps).watching.handled =
      reloads r.watching.handled ++ (r.operations steps).filterMap Operation.message? := by
  induction steps generalizing r with
  | nil => simp [after, operations]
  | cons st steps ih =>
    have htold : (r.operation? st).toList.filterMap Operation.message? =
        reloads (r.handles? st).toList := by
      rw [← r.message_operation?]
      cases r.operation? st with
      | none => rfl
      | some op => cases hmessage : op.message? <;> simp [hmessage]
    calc reloads ((r.step st).after steps).watching.handled
      _ = reloads (r.watching.handled ++ (r.handles? st).toList) ++
          ((r.step st).operations steps).filterMap Operation.message? := by rw [ih, handled_step]
      _ = _ := by rw [operations, filterMap_append, htold, reloads_append, append_assoc]

/-! ### What a connection is sent -/

theorem registered_step {r : Reloading α} {e : Entry α} (he : e ∈ r.history.registered)
    (st : ReloadStep α) : e ∈ (r.step st).history.registered := by
  rw [step]
  cases r.operation? st with
  | none => exact he
  | some op =>
    rw [Option.elim_some, History.registered_step]
    exact mem_append_left _ he

section Serving

variable {r : Reloading α} (hs : r.history.Sound) {e : Entry α} (he : e ∈ r.history.registered)
include hs

theorem sound_step (st : ReloadStep α) : (r.step st).history.Sound := by
  rw [step]
  cases r.operation? st with
  | none => exact hs
  | some op => exact hs.step op

include he

theorem serves_iff : r.serves e.id ↔ e ∈ r.history.connections.entries := by
  simp only [serves, any_eq_true, decide_eq_true_eq]
  constructor
  · rintro ⟨e', he', hid⟩
    rwa [← hs.eq_of_id (hs.mem_registered.mpr (.inl he')) he hid]
  · intro hthere
    exact ⟨e, hthere, rfl⟩

theorem texts_step {st : ReloadStep α} (hreaches : st.Reaches e) :
    texts e.id (r.step st).history.done =
      texts e.id r.history.done ++
        reloads (if r.serves e.id then (r.handles? st).toList else []) := by
  have hmessage := r.message_operation? st
  cases hop : r.operation? st with
  | none =>
    have hsilent : reloads (if r.serves e.id then (r.handles? st).toList else []) = [] := by
      rw [hop] at hmessage
      split
      · exact hmessage.symm
      · rfl
    rw [step, hop, Option.elim_none, hsilent, append_nil]
  | some op =>
    rw [step, hop, Option.elim_some]
    by_cases hthere : e ∈ r.history.connections.entries
    · have hkept : (if op.keeps e then op.message?.toList else []) = op.message?.toList := by
        cases st with
        | operate op' silent =>
          cases hop
          simp [silent]
        | thread st order failure =>
          obtain ⟨w, -, rfl⟩ := Option.map_eq_some_iff.mp hop
          have hnone : failure e = none := hreaches
          simp [Operation.keeps, hnone]
      rw [hop, Option.bind_some] at hmessage
      rw [if_pos ((serves_iff hs he).mpr hthere), hs.texts_step_of_mem hthere, hkept, hmessage]
    · rw [if_neg (mt (serves_iff hs he).mp hthere), hs.texts_step_of_not_mem he hthere]
      exact (append_nil _).symm

end Serving

private theorem texts_after {r : Reloading α} (hs : r.history.Sound) {e : Entry α}
    (he : e ∈ r.history.registered) {steps : List (ReloadStep α)}
    (hreaches : ∀ st ∈ steps, st.Reaches e) :
    texts e.id (r.after steps).history.done =
      texts e.id r.history.done ++ reloads (r.heard e.id steps) := by
  induction steps generalizing r with
  | nil => simp [after, heard, reloads]
  | cons st steps ih =>
    obtain ⟨hfirst, hrest⟩ := forall_mem_cons.mp hreaches
    calc texts e.id ((r.step st).after steps).history.done
      _ = texts e.id (r.step st).history.done ++ reloads ((r.step st).heard e.id steps) :=
        ih (sound_step hs st) (registered_step he st) hrest
      _ = _ := by rw [texts_step hs he hfirst, heard, reloads_append, append_assoc]

theorem sound_history (steps : List (ReloadStep α)) : (start.after steps).history.Sound := by
  rw [history_after]
  exact History.sound_run _

private theorem texts_of_registered (before : List (ReloadStep α)) (connection : α)
    {after : List (ReloadStep α)} {e : Entry α}
    (he : e = ⟨(start.after before).history.connections.nextId, connection⟩)
    (hreaches : ∀ st ∈ after, st.Reaches e) :
    let r := (start.after before).step (.operate (.register connection) rfl)
    texts e.id (r.after after).history.done = reloads (r.heard e.id after) := by
  intro r
  have hbefore : (start.after before).history.Sound := sound_history before
  have hs : r.history.Sound := sound_step hbefore _
  have hregistered : e ∈ r.history.registered := by
    rw [he]
    exact mem_append_right _ (mem_singleton_self _)
  have hnone : texts e.id r.history.done = [] := by
    rw [show r.history = (start.after before).history.step (.register connection) from rfl,
      hbefore.texts_step rfl]
    exact hbefore.texts_fresh (Nat.le_of_eq (congrArg Entry.id he).symm)
  rw [texts_after hs hregistered hreaches, hnone, nil_append]

/-! ### Working and closing without interference -/

def live (r : Reloading α) : LiveReload α := ⟨r.history.connections, r.watching.watcher⟩

section Live

variable (r : Reloading α) (hidle : r.watching.worker = .idle) (failure : α → Option String)

/-- Steps of the threads, each connection told from the oldest to the newest. -/
def threads (steps : List WatchStep) : List (ReloadStep α) :=
  steps.map fun st => .thread st .ascending fun e => failure e.connection

@[simp] private theorem watchSteps_threads (steps : List WatchStep) :
    (threads failure steps).filterMap ReloadStep.watchStep? = steps := by
  simp [threads, filterMap_map, Function.comp_def, ReloadStep.watchStep?]

include hidle in
private theorem live_work :
    let r' := r.after (threads failure [.take, .handle])
    r'.live = (r.live.work failure).1 ∧
      r'.history.done = r.history.done ++ (r.live.work failure).2.1 := by
  cases hqueue : r.watching.watcher.queue with
  | nil =>
    cases hconnected : r.watching.isConnected <;>
      simp [live, LiveReload.work, Watcher.work, after, threads, step, operation?,
        ReloadStep.watchStep?, Watching.handles?, Watching.step, hidle, hqueue, hconnected]
  | cons n rest =>
    cases hwrite : n.write? <;>
      simp [live, LiveReload.work, LiveReload.react, Watcher.work, after, threads, step, operation?,
        ReloadStep.watchStep?, Watching.handles?, Watching.step, hidle, hqueue, hwrite,
        History.step, Connections.broadcast_eq_broadcastIn]

private theorem thread_of_empty {r : Reloading α} (hempty : r.history.connections.entries = [])
    (steps : List WatchStep) :
    (r.after (threads failure steps)).history.connections = r.history.connections ∧
      (r.after (threads failure steps)).history.done = r.history.done := by
  induction steps generalizing r with
  | nil => exact ⟨rfl, rfl⟩
  | cons st steps ih =>
    let next := r.step (.thread st .ascending fun e => failure e.connection)
    have hnext : next.history.connections = r.history.connections ∧
        next.history.done = r.history.done := by
      simp only [next, step, operation?]
      cases (r.watching.handles? st).bind Notice.write? with
      | none => exact ⟨rfl, rfl⟩
      | some w =>
        have hsame : { r.history.connections with entries := [] } = r.history.connections := by
          rw [← hempty]
        simp [History.step, Connections.broadcastIn, Traversal.ascending, hempty, hsame]
    obtain ⟨hconnections, hdone⟩ := hnext
    obtain ⟨ihconnections, ihdone⟩ := ih (r := next) (hconnections ▸ hempty)
    exact ⟨ihconnections.trans hconnections, ihdone.trans hdone⟩

include hidle in
private theorem live_close (hjoinable : r.watching.isJoinable) :
    let r' := r.after (.operate (.closeAll .ascending) rfl :: threads failure r.watching.closing)
    r'.live = r.live.close.1 ∧ r'.history.done = r.history.done ++ r.live.close.2.1 := by
  intro r'
  let closed := r.step (.operate (.closeAll .ascending) rfl)
  obtain ⟨hconnections, hdone⟩ := thread_of_empty failure (r := closed) rfl r.watching.closing
  have hwatching : r'.watching = r.watching.after r.watching.closing := by
    rw [watching_after, filterMap_cons_none rfl, watchSteps_threads]
  rw [Watching.after_closing _ hidle hjoinable] at hwatching
  refine ⟨?_, hdone⟩
  rw [live, hwatching]
  exact congrArg (LiveReload.mk · _) hconnections

end Live

/-! ### After the end -/

private theorem finished_step {r : Reloading α} (hw : r.watching.Finished) (st : ReloadStep α) :
    (r.step st).watching.Finished := by
  cases st with
  | operate op silent => exact hw
  | thread st order failure => exact hw.after [st]

private theorem texts_of_finished {r : Reloading α} (hs : r.history.Sound)
    (hw : r.watching.Finished) (id : Nat) (later : List (ReloadStep α)) :
    texts id (r.after later).history.done = texts id r.history.done := by
  induction later generalizing r with
  | nil => rfl
  | cons st later ih =>
    refine (ih (sound_step hs st) (finished_step hw st)).trans ?_
    cases st with
    | operate op silent => exact hs.texts_step silent id
    | thread st order failure =>
      have hnone : r.operation? (.thread st order failure) = none := by
        cases st <;> simp [operation?, Watching.handles?, hw.worker]
      rw [step, hnone, Option.elim_none]

private theorem write?_isSome_iff (n : Notice) :
    n.write?.isSome ↔
      ∃ paths, n = .ok ⟨.modify .data, paths⟩ ∨ n = .ok ⟨.modify .any, paths⟩ := by
  rcases n with text | ⟨kind, paths⟩
  · simp [Notice.write?]
  · rcases kind with _ | _ | _ | m | _ | _
    case modify => cases m <;> simp [Notice.write?, WatchEvent.isWrite]
    all_goals simp [Notice.write?, WatchEvent.isWrite]

theorem sound_watching (steps : List (ReloadStep α)) : (start.after steps).watching.Sound := by
  rw [watching_after]
  exact Watching.sound_start.after _

/-- What was reported while the watcher was open comes first in the queue, all of it. -/
theorem reported_while_open {upto steps : List (ReloadStep α)} (hupto : upto <+: steps)
    (hopen : (start.after upto).watching.watcher.isOpen) :
    (upto.filterMap ReloadStep.watchStep?).filterMap WatchStep.notice? <+:
      (start.after steps).watching.reported := by
  obtain ⟨rest, rfl⟩ := hupto
  have hconnected : (start.after upto).watching.isConnected := by
    cases hconnected : (start.after upto).watching.isConnected with
    | true => rfl
    | false => simp [(sound_watching upto).disconnected hconnected] at hopen
  rw [watching_after] at hconnected
  rw [← Watching.reported_of_connected hconnected, after_append, watching_after _ rest,
    watching_after _ upto]
  exact Watching.reported_prefix _ _

/-- Reloads are the writes. What `LiveReload` does at once, the threads do in steps. In a run,
whoever is registered is sent one reload for each write that is dealt with while it is, and nothing
for anything else.

A call that closes the watcher and has fetched the worker returns when all notices that ever came
into the queue were dealt with, once and in order; from then on nothing happens but that further
calls return. A call that finds the worker fetched returns without waiting, so its return says the
same only if no other call waits. -/
theorem reloads_are_writes :
    (∀ n : Notice, n.write?.isSome ↔
      ∃ paths, n = .ok ⟨.modify .data, paths⟩ ∨ n = .ok ⟨.modify .any, paths⟩) ∧
    (∀ (w : Watching) (n : Notice), w.isConnected → w.watcher.isOpen →
      (w.step (.report n)).watcher = w.watcher.notify n) ∧
    (∀ (r : Reloading α) (failure : α → Option String), r.watching.worker = .idle →
      let worked := r.after (threads failure [.take, .handle])
      let closed :=
        r.after (.operate (.closeAll .ascending) rfl :: threads failure r.watching.closing)
      worked.live = (r.live.work failure).1 ∧
      worked.history.done = r.history.done ++ (r.live.work failure).2.1 ∧
      (r.watching.isJoinable → closed.live = r.live.close.1 ∧
        closed.history.done = r.history.done ++ r.live.close.2.1)) ∧
    (∀ (before : List (ReloadStep α)) (connection : α) (after : List (ReloadStep α)),
      let e : Entry α := ⟨(start.after before).history.connections.nextId, connection⟩
      let r := (start.after before).step (.operate (.register connection) rfl)
      (∀ st ∈ after, st.Reaches e) →
        texts e.id (r.after after).history.done = reloads (r.heard e.id after)) ∧
    ∀ steps : List (ReloadStep α),
      let r := start.after steps
      let w := r.watching
      (start.operations steps).filterMap Operation.message? = reloads w.handled ∧
      (∀ (call : Nat) (joined : Bool), w.calls[call]? = some (.returned joined) →
        joined = true ∨ .waiting ∉ w.calls →
        w.handled = w.reported ∧
        (∀ upto, upto <+: steps → (start.after upto).watching.watcher.isOpen →
          (upto.filterMap ReloadStep.watchStep?).filterMap WatchStep.notice? <+: w.handled) ∧
        ∀ later : List (ReloadStep α),
          let r' := r.after later
          r'.watching = { w with calls := r'.watching.calls } ∧
          (∀ id, texts id r'.history.done = texts id r.history.done) ∧
          ∀ files dir, r'.watching.watcher.watch files dir = .error .closed) ∧
      (w.isJoinable = false →
        w.after [.close, .proceed w.calls.length, .proceed w.calls.length] =
          { w with calls := w.calls ++ [.returned false] }) := by
  refine ⟨write?_isSome_iff, ?_, ?_, ?_, ?_⟩
  · intro w n hconnected hopen
    exact Watching.step_report_of_open hconnected hopen n
  · intro r failure hidle
    obtain ⟨hlive, hdone⟩ := live_work r hidle failure
    exact ⟨hlive, hdone, live_close r hidle failure⟩
  · intro before connection after e r hreaches
    exact texts_of_registered before connection rfl hreaches
  · intro steps r w
    have hs : w.Sound := sound_watching steps
    refine ⟨?_, ?_, hs.after_close⟩
    · exact (start.reloads_handled steps).symm
    · intro call joined hreturned hjoined
      have hw := hs.finished hreturned hjoined
      refine ⟨hw.handled, ?_, ?_⟩
      · intro upto hupto hopen
        rw [hw.handled]
        exact reported_while_open hupto hopen
      · intro later r'
        have hlater : r'.watching = w.after (later.filterMap ReloadStep.watchStep?) :=
          r.watching_after later
        refine ⟨?_, ?_, ?_⟩
        · rw [hlater]
          exact hw.after_eq _
        · intro id
          exact texts_of_finished (sound_history steps) hw id later
        · rw [hlater]
          exact (hw.after _).watch_eq

/-- A call returns while another one still waits for the worker, and the write that was queued before they
began is not dealt with. And a connection that is registered twice is told of a write twice. -/
theorem overlapping_close_returns_early :
    let write : Notice := .ok ⟨.modify .data, ["page.lua"]⟩
    let closed := (start : Reloading String).after (threads (fun _ => none)
      [.report write, .close, .close, .proceed 0, .proceed 0, .proceed 1, .proceed 1])
    let later := closed.after (threads (fun _ => none) [.take, .handle])
    let twice := (start : Reloading String).after (.operate (.register "client") rfl ::
      .operate (.register "client") rfl :: threads (fun _ => none) [.report write, .take, .handle])
    closed.watching.calls = [.waiting, .returned false] ∧
      closed.watching.reported = [write] ∧ closed.watching.handled = [] ∧
      later.watching.handled = [write] ∧
      twice.history.done = [.send ⟨0, "client"⟩ reloadMessage, .send ⟨1, "client"⟩ reloadMessage] := by
  decide

/-- A write and an error are dealt with, then a write is reported that waits when closing begins. -/
example :
    let write : Notice := .ok ⟨.modify .data, ["page.lua"]⟩
    let r := (start : Reloading Unit).after (.operate (.register ()) rfl ::
      threads (fun _ => none) [.report write, .report (.error "overflow"), .take, .handle, .take,
        .handle, .report write, .close, .proceed 0, .proceed 0, .disconnect, .take, .handle, .take,
        .proceed 0])
    texts 0 r.history.done = ["reload", "reload"] ∧ r.watching.calls = [.returned true] := by
  decide

end Reloading
end Pagewright.Reload
