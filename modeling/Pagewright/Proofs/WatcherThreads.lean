import Mathlib.Data.List.Induction
import Pagewright.Reload.Watcher

/-!
A watcher in the hands of several threads: the system that reports notices, the worker that takes
them from the queue, and any number of calls that close the watcher. One step of a thread is one step
here; a thread that has to wait stays where it is.
-/
namespace Pagewright.Reload

inductive Worker where
  | idle
  /-- A notice is taken from the queue, but not dealt with. -/
  | handling (n : Notice)
  | ended
deriving Repr

@[simp] def Worker.inHand : Worker → List Notice
  | .handling n => [n]
  | _ => []

inductive Closing where
  /-- It has to stop the watching. -/
  | stopping
  /-- It has to fetch the worker, which one call alone can do. -/
  | fetching
  /-- It has the worker, and waits for its end. -/
  | waiting
  | returned (waited : Bool)
deriving DecidableEq, Repr

namespace Closing

def hasStopped : Closing → Bool
  | .stopping => false
  | _ => true

def hasFetched : Closing → Bool
  | .waiting | .returned _ => true
  | _ => false

end Closing

inductive WatchStep where
  | watch (files : Files) (dir : String)
  /-- The system reports a notice. It can still do so when the watching was just stopped. -/
  | report (n : Notice)
  /-- The system will report nothing more. -/
  | disconnect
  /-- The worker takes the next notice, or learns that none will come. -/
  | take
  /-- The worker has dealt with the notice that it took. -/
  | handle
  /-- A call begins that closes the watcher. -/
  | close
  /-- The call of this number goes on. -/
  | proceed (call : Nat)

def WatchStep.notice? : WatchStep → Option Notice
  | .report n => some n
  | _ => none

structure Watching where
  watcher : Watcher
  /-- The system can report notices. -/
  isConnected : Bool
  worker : Worker
  /-- No call has fetched the worker. -/
  isJoinable : Bool
  /-- The calls that close the watcher, by their number. -/
  calls : List Closing
  /-- The notices that came into the queue, in order. -/
  reported : List Notice
  /-- The notices that were dealt with, in order. -/
  handled : List Notice

theorem Watcher.watch_ok {w w' : Watcher} {files : Files} {dir : String}
    (hwatch : w.watch files dir = .ok w') :
    w.isOpen = true ∧ w'.isOpen = true ∧ w'.queue = w.queue := by
  unfold watch at hwatch
  split at hwatch
  next => cases hwatch
  next hopen =>
    have hopen : w.isOpen = true := by simpa using hopen
    split at hwatch
    · cases hwatch
      exact ⟨hopen, hopen, rfl⟩
    · cases hwatch

namespace Watching

def start : Watching := ⟨.start, true, .idle, true, [], [], []⟩

def proceed (w : Watching) (call : Nat) : Watching :=
  match w.calls[call]?, w.worker with
  | some .stopping, _ =>
    { w with
      watcher := { w.watcher with watches := [], isOpen := false }
      calls := w.calls.set call .fetching }
  | some .fetching, _ =>
    { w with
      isJoinable := false
      calls := w.calls.set call (if w.isJoinable then .waiting else .returned false) }
  | some .waiting, .ended => { w with calls := w.calls.set call (.returned true) }
  | _, _ => w

def step (w : Watching) : WatchStep → Watching
  | .watch files dir =>
    match w.watcher.watch files dir with
    | .ok watcher => { w with watcher }
    | .error _ => w
  | .report n =>
    if w.isConnected then
      { w with
        watcher := { w.watcher with queue := w.watcher.queue ++ [n] }
        reported := w.reported ++ [n] }
    else w
  -- whoever reports is let go with the watching, not before
  | .disconnect => if w.watcher.isOpen then w else { w with isConnected := false }
  | .take =>
    match w.worker, w.watcher.work with
    | .idle, (some n, watcher) => { w with watcher, worker := .handling n }
    | .idle, (none, _) => if w.isConnected then w else { w with worker := .ended }
    | _, _ => w
  | .handle =>
    match w.worker with
    | .handling n => { w with worker := .idle, handled := w.handled ++ [n] }
    | _ => w
  | .close => { w with calls := w.calls ++ [.stopping] }
  | .proceed call => w.proceed call

def handles? (w : Watching) : WatchStep → Option Notice
  | .handle => w.worker.inHand.head?
  | _ => none

def after (w : Watching) (steps : List WatchStep) : Watching := steps.foldl step w

@[simp] theorem after_append (w : Watching) (steps later : List WatchStep) :
    w.after (steps ++ later) = (w.after steps).after later :=
  List.foldl_append

@[simp] theorem after_concat (w : Watching) (steps : List WatchStep) (st : WatchStep) :
    w.after (steps ++ [st]) = (w.after steps).step st :=
  w.after_append steps [st]

/-! ### What the steps are for a watcher -/

theorem step_report_of_open {w : Watching} (hconnected : w.isConnected)
    (hopen : w.watcher.isOpen) (n : Notice) :
    (w.step (.report n)).watcher = w.watcher.notify n := by
  simp [step, Watcher.notify, hconnected, hopen]

theorem step_record (w : Watching) (st : WatchStep) :
    (w.step st).reported = w.reported ++ (if w.isConnected then st.notice?.toList else []) ∧
      (w.step st).handled = w.handled ++ (w.handles? st).toList ∧
      ((w.step st).isConnected → w.isConnected) := by
  cases st with
  | report n =>
    cases hconnected : w.isConnected <;>
      simp [step, WatchStep.notice?, handles?, hconnected]
  | handle => cases hworker : w.worker <;> simp [step, WatchStep.notice?, handles?, hworker]
  | watch files dir => simp only [step]; split <;> simp [WatchStep.notice?, handles?]
  | disconnect => simp only [step]; split <;> simp [WatchStep.notice?, handles?]
  | take =>
    simp only [step]
    split
    · simp [WatchStep.notice?, handles?]
    · split <;> simp [WatchStep.notice?, handles?]
    · simp [WatchStep.notice?, handles?]
  | close => simp [step, WatchStep.notice?, handles?]
  | proceed call => simp only [step, proceed]; split <;> simp [WatchStep.notice?, handles?]

/-! ### What holds after any steps -/

structure Sound (w : Watching) : Prop where
  /-- No notice is lost, doubled or overtaken on its way. -/
  queued : w.handled ++ w.worker.inHand ++ w.watcher.queue = w.reported
  unwatched : w.watcher.isOpen = false → w.watcher.watches = []
  disconnected : w.isConnected = false → w.watcher.isOpen = false
  ended : w.worker = .ended → w.isConnected = false ∧ w.watcher.queue = []
  stopped : ∀ c ∈ w.calls, c.hasStopped → w.watcher.isOpen = false
  fetched : ∀ c ∈ w.calls, c.hasFetched → w.isJoinable = false
  /-- The worker is fetched by a call that does not return before its end. -/
  joined : w.isJoinable = false → .waiting ∈ w.calls ∨ w.worker = .ended
  waited : .returned true ∈ w.calls → w.worker = .ended

theorem sound_start : start.Sound where
  queued := rfl
  unwatched := fun _ => rfl
  disconnected := nofun
  ended := nofun
  stopped := nofun
  fetched := nofun
  joined := nofun
  waited := nofun

theorem mem_set_of_ne {calls : List Closing} {call : Nat} {c old : Closing} (new : Closing)
    (hold : calls[call]? = some old) (hc : c ∈ calls) (hne : c ≠ old) : c ∈ calls.set call new := by
  obtain ⟨i, hi⟩ := List.mem_iff_getElem?.mp hc
  have hcall : call ≠ i := by
    rintro rfl
    exact hne (Option.some.inj (hi.symm.trans hold))
  exact List.mem_iff_getElem?.mpr ⟨i, (List.getElem?_set_ne hcall).trans hi⟩

theorem forall_mem_set {calls : List Closing} {P : Closing → Prop} (h : ∀ c ∈ calls, P c)
    (call : Nat) {new : Closing} (hnew : P new) : ∀ c ∈ calls.set call new, P c := by
  intro c hc
  rcases List.mem_or_eq_of_mem_set hc with hold | rfl
  · exact h c hold
  · exact hnew

namespace Sound

variable {w : Watching} (hs : w.Sound)
include hs

theorem step_watch (files : Files) (dir : String) : (w.step (.watch files dir)).Sound := by
  rw [Watching.step]
  split
  next watcher hwatch =>
    obtain ⟨hopen, hopen', hqueue⟩ := Watcher.watch_ok hwatch
    exact { hs with
      queued := hqueue ▸ hs.queued
      unwatched := fun hclosed => by simp [hopen'] at hclosed
      disconnected := fun hconnected => by simp [hs.disconnected hconnected] at hopen
      ended := fun hended => hqueue ▸ hs.ended hended
      stopped := fun c hc hstop => by simp [hs.stopped c hc hstop] at hopen }
  next => exact hs

theorem step_report (n : Notice) : (w.step (.report n)).Sound := by
  rw [Watching.step]
  split
  next hconnected =>
    exact { hs with
      queued := by rw [← hs.queued]; simp only [List.append_assoc]
      ended := fun hended => by simp [(hs.ended hended).1] at hconnected }
  next => exact hs

theorem step_disconnect : (w.step .disconnect).Sound := by
  rw [Watching.step]
  split
  next => exact hs
  next hopen =>
    exact { hs with
      disconnected := fun _ => Bool.eq_false_iff.mpr hopen
      ended := fun hended => ⟨rfl, (hs.ended hended).2⟩ }

theorem step_take : (w.step .take).Sound := by
  rw [Watching.step]
  split
  next n watcher hworker hwork =>
    cases hqueue : w.watcher.queue with
    | nil => simp [Watcher.work, hqueue] at hwork
    | cons first rest =>
      simp only [Watcher.work, hqueue, Prod.mk.injEq, Option.some.injEq] at hwork
      obtain ⟨rfl, rfl⟩ := hwork
      exact { hs with
        queued := by simpa [hworker, hqueue] using hs.queued
        ended := nofun
        joined := fun hjoinable => by simpa [hworker] using hs.joined hjoinable
        waited := fun hwaited => by simpa [hworker] using hs.waited hwaited }
  next watcher hworker hwork =>
    split
    next => exact hs
    next hconnected =>
      have hqueue : w.watcher.queue = [] := by
        cases hqueue : w.watcher.queue <;> simp_all [Watcher.work]
      exact { hs with
        queued := by simpa [hworker] using hs.queued
        ended := fun _ => ⟨Bool.eq_false_iff.mpr hconnected, hqueue⟩
        joined := fun _ => .inr rfl
        waited := fun _ => rfl }
  next => exact hs

theorem step_handle : (w.step .handle).Sound := by
  rw [Watching.step]
  split
  next n hworker =>
    exact { hs with
      queued := by simpa [hworker] using hs.queued
      ended := nofun
      joined := fun hjoinable => by simpa [hworker] using hs.joined hjoinable
      waited := fun hwaited => by simpa [hworker] using hs.waited hwaited }
  next => exact hs

theorem step_close : (w.step .close).Sound :=
  { hs with
    stopped := List.forall_mem_append.mpr ⟨hs.stopped, by simp [Closing.hasStopped]⟩
    fetched := List.forall_mem_append.mpr ⟨hs.fetched, by simp [Closing.hasFetched]⟩
    joined := fun hjoinable => (hs.joined hjoinable).imp_left (List.mem_append_left _)
    waited := fun hwaited => hs.waited (by simpa [Watching.step] using hwaited) }

theorem step_proceed (call : Nat) : (w.step (.proceed call)).Sound := by
  rw [Watching.step, proceed]
  split
  next hcall =>
    -- the watching is stopped, if it was not already
    exact { hs with
      unwatched := fun _ => rfl
      disconnected := fun _ => rfl
      stopped := fun _ _ _ => rfl
      fetched := forall_mem_set hs.fetched call nofun
      joined := fun hjoinable => (hs.joined hjoinable).imp_left (mem_set_of_ne _ hcall · nofun)
      waited := fun hwaited => by
        rcases List.mem_or_eq_of_mem_set hwaited with hold | hnew
        · exact hs.waited hold
        · cases hnew }
  next hcall =>
    -- the worker is fetched, or was by another call
    have hstopped := hs.stopped .fetching (List.mem_of_getElem? hcall) rfl
    exact { hs with
      stopped := forall_mem_set hs.stopped call fun _ => hstopped
      fetched := fun _ _ _ => rfl
      joined := fun _ => by
        cases hjoinable : w.isJoinable with
        | true => exact .inl (List.mem_set (List.getElem?_eq_some_iff.mp hcall).1 _)
        | false => exact (hs.joined hjoinable).imp_left (mem_set_of_ne _ hcall · nofun)
      waited := fun hwaited => by
        rcases List.mem_or_eq_of_mem_set hwaited with hold | hnew
        · exact hs.waited hold
        · split at hnew <;> cases hnew }
  next hcall hworker =>
    -- the worker that the call waits for has ended
    have hmem : .waiting ∈ w.calls := List.mem_of_getElem? hcall
    exact { hs with
      stopped := forall_mem_set hs.stopped call fun _ => hs.stopped _ hmem rfl
      fetched := forall_mem_set hs.fetched call fun _ => hs.fetched _ hmem rfl
      joined := fun _ => .inr hworker
      waited := fun _ => hworker }
  next => exact hs

theorem step (st : WatchStep) : (w.step st).Sound := by
  cases st with
  | watch files dir => exact hs.step_watch files dir
  | report n => exact hs.step_report n
  | disconnect => exact hs.step_disconnect
  | take => exact hs.step_take
  | handle => exact hs.step_handle
  | close => exact hs.step_close
  | proceed call => exact hs.step_proceed call

theorem after (steps : List WatchStep) : (w.after steps).Sound := by
  induction steps using List.reverseRecOn with
  | nil => exact hs
  | append_singleton steps st ih =>
    rw [after_concat]
    exact ih.step st

end Sound

theorem reported_prefix (w : Watching) (steps : List WatchStep) :
    w.reported <+: (w.after steps).reported := by
  induction steps using List.reverseRecOn with
  | nil => exact List.prefix_rfl
  | append_singleton steps st ih =>
    obtain ⟨hreported, -, -⟩ := (w.after steps).step_record st
    rw [after_concat, hreported]
    exact ih.trans (List.prefix_append _ _)

/-- As long as the system can report, everything it reports comes into the queue. -/
theorem reported_of_connected {steps : List WatchStep}
    (hconnected : (start.after steps).isConnected) :
    (start.after steps).reported = steps.filterMap WatchStep.notice? := by
  induction steps using List.reverseRecOn with
  | nil => rfl
  | append_singleton steps st ih =>
    obtain ⟨hreported, -, hbefore⟩ := (start.after steps).step_record st
    rw [after_concat] at hconnected ⊢
    have hbefore := hbefore hconnected
    rw [hreported, ih hbefore, if_pos hbefore, List.filterMap_append]
    cases hnotice : st.notice? <;> simp [hnotice]

/-! ### The end -/

/-- Nothing is watched, queued or in hand any more, and the worker has come to its end. -/
structure Finished (w : Watching) : Prop where
  watcher : w.watcher = ⟨[], [], false⟩
  isConnected : w.isConnected = false
  worker : w.worker = .ended
  isJoinable : w.isJoinable = false
  handled : w.handled = w.reported

theorem Sound.finished {w : Watching} (hs : w.Sound) {call : Nat} {joined : Bool}
    (hreturned : w.calls[call]? = some (.returned joined))
    (hjoined : joined = true ∨ .waiting ∉ w.calls) : w.Finished := by
  have hmem := List.mem_of_getElem? hreturned
  have hfetched := hs.fetched _ hmem rfl
  have hended : w.worker = .ended := by
    rcases hjoined with rfl | hnone
    · exact hs.waited hmem
    · exact (hs.joined hfetched).resolve_left hnone
  obtain ⟨hconnected, hqueue⟩ := hs.ended hended
  have hclosed := hs.disconnected hconnected
  have hwatches := hs.unwatched hclosed
  exact {
    watcher := by rw [← hwatches, ← hqueue, ← hclosed]
    isConnected := hconnected
    worker := hended
    isJoinable := hfetched
    handled := by simpa [hended, hqueue] using hs.queued }

namespace Finished

variable {w : Watching} (hw : w.Finished)
include hw

theorem step_eq (st : WatchStep) : w.step st = { w with calls := (w.step st).calls } := by
  have hopen : w.watcher.isOpen = false := congrArg Watcher.isOpen hw.watcher
  have hsame (hsame : w.step st = w) : w.step st = { w with calls := (w.step st).calls } := by
    rw [hsame]
  cases st with
  | watch files dir => exact hsame (by simp [Watching.step, Watcher.watch, hopen])
  | report n => exact hsame (by simp [Watching.step, hw.isConnected])
  | disconnect => simp [Watching.step, hopen, hw.isConnected]
  | take => exact hsame (by simp [Watching.step, hw.worker])
  | handle => exact hsame (by simp [Watching.step, hw.worker])
  | close => rfl
  | proceed call =>
    rw [Watching.step, proceed]
    split
    · simp [hw.watcher]
    · simp [hw.isJoinable]
    · rfl
    · rfl

theorem of_calls (calls : List Closing) : Finished { w with calls } :=
  ⟨hw.watcher, hw.isConnected, hw.worker, hw.isJoinable, hw.handled⟩

theorem after_eq (steps : List WatchStep) :
    w.after steps = { w with calls := (w.after steps).calls } := by
  induction steps using List.reverseRecOn with
  | nil => rfl
  | append_singleton steps st ih =>
    rw [after_concat, ih]
    exact (hw.of_calls _).step_eq st

theorem after (steps : List WatchStep) : (w.after steps).Finished := by
  rw [hw.after_eq]
  exact hw.of_calls _

@[simp] theorem watch_eq (files : Files) (dir : String) :
    w.watcher.watch files dir = .error .closed := by
  rw [hw.watcher]
  rfl

end Finished

/-- Once a call has fetched the worker, a call that begins later returns at once, and nothing else
comes of it. -/
theorem Sound.after_close {w : Watching} (hs : w.Sound) (hfetched : w.isJoinable = false) :
    w.after [.close, .proceed w.calls.length, .proceed w.calls.length] =
      { w with calls := w.calls ++ [.returned false] } := by
  have hclosed : w.watcher.isOpen = false := by
    rcases hs.joined hfetched with hwaiting | hended
    · exact hs.stopped _ hwaiting rfl
    · exact hs.disconnected (hs.ended hended).1
  have hwatches := hs.unwatched hclosed
  have hwatcher : { w.watcher with watches := [], isOpen := false } = w.watcher := by
    rw [← hwatches, ← hclosed]
  simp [Watching.after, Watching.step, proceed, hfetched, hwatcher]

/-! ### Closing without interference -/

def working : Nat → List WatchStep
  | 0 => []
  | count + 1 => .take :: .handle :: working count

/-- A call that closes the watcher, from its begin to its return. -/
def closing (w : Watching) : List WatchStep :=
  [.close, .proceed w.calls.length, .disconnect, .proceed w.calls.length] ++
    working w.watcher.queue.length ++ [.take, .proceed w.calls.length]

private theorem after_working (queue : List Notice) (w : Watching) (hidle : w.worker = .idle)
    (hqueue : w.watcher.queue = queue) :
    w.after (working queue.length) =
      { w with
        watcher := { w.watcher with queue := [] }
        handled := w.handled ++ queue } := by
  induction queue generalizing w with
  | nil =>
    have hsame : { w.watcher with queue := [] } = w.watcher := by rw [← hqueue]
    rw [hsame, List.append_nil]
    rfl
  | cons n queue ih =>
    have hnext : (w.step .take).step .handle =
        { w with watcher := { w.watcher with queue }, handled := w.handled ++ [n] } := by
      simp [step, Watcher.work, hidle, hqueue]
    have hrest := ih ((w.step .take).step .handle) (by rw [hnext]; exact hidle) (by rw [hnext])
    calc w.after (working (queue.length + 1))
      _ = ((w.step .take).step .handle).after (working queue.length) := rfl
      _ = _ := by rw [hrest, hnext, List.append_assoc, List.singleton_append]

theorem after_closing (w : Watching) (hidle : w.worker = .idle) (hjoinable : w.isJoinable) :
    w.after w.closing =
      { w with
        watcher := w.watcher.close.2
        isConnected := false
        worker := .ended
        isJoinable := false
        calls := w.calls ++ [.returned true]
        handled := w.handled ++ w.watcher.close.1 } := by
  have hstopped : w.after [.close, .proceed w.calls.length, .disconnect, .proceed w.calls.length] =
      { w with
        watcher := ⟨[], w.watcher.queue, false⟩
        isConnected := false
        isJoinable := false
        calls := w.calls ++ [.waiting] } := by
    simp [after, step, proceed, hjoinable]
  have hdrained := after_working w.watcher.queue
    (w.after [.close, .proceed w.calls.length, .disconnect, .proceed w.calls.length])
    (by rw [hstopped]; exact hidle) (by rw [hstopped])
  rw [closing, after_append, after_append, hdrained, hstopped]
  simp [after, step, proceed, Watcher.work, Watcher.close, hidle]

end Watching
end Pagewright.Reload
