import Mathlib.Data.List.TakeWhile
import Mathlib.Logic.Function.Iterate
import Pagewright.Proofs.ConnectionHistory

/-!
The frames of one client. Any thread that holds the client puts frames into its queue; the thread that
serves it takes them out one by one, in passes with a look at the client's own frames between them. When
its rounds are over, for whatever reason, it ends the registration and returns.
-/
namespace Pagewright.Reload

open List

inductive Phase where
  /-- In a pass over the queue. -/
  | writing
  /-- After a pass that wrote all that was queued. -/
  | reading
  /-- The rounds are over, and the pings are to be stopped. -/
  | ended (e : Ending)
  /-- Nobody pings any more, and the registration is to be ended. -/
  | leaving (e : Ending)
  /-- The registration has ended, and the socket is to be closed. -/
  | unregistered (e : Ending)
  | returned (e : Ending)
deriving DecidableEq, Repr

namespace Phase

def isServing : Phase → Bool
  | writing | reading => true
  | _ => false

def ending? : Phase → Option Ending
  | writing | reading => none
  | ended e | leaving e | unregistered e | returned e => some e

def hasUnregistered : Phase → Bool
  | unregistered _ | returned _ => true
  | _ => false

def next : Phase → Phase
  | ended e => leaving e
  | leaving e => unregistered e
  | unregistered e => returned e
  | p => p

def afterPass : PassEnd → Phase
  | .caughtUp => reading
  | .closing => ended .closed
  | .failed => ended .writeFailed

private theorem isServing_iff {p : Phase} : p.isServing = false ↔ ∃ e, p.ending? = some e := by
  cases p <;> simp [isServing, ending?]

theorem isServing_next {p : Phase} (h : p.isServing = false) : p.next.isServing = false := by
  cases p <;> first | rfl | exact h

theorem iterate_next {p : Phase} {e : Ending} (h : p.ending? = some e) {n : Nat} (hn : 3 ≤ n) :
    next^[n] p = returned e := by
  obtain ⟨m, rfl⟩ : ∃ m, n = m + 3 := ⟨n - 3, by omega⟩
  have hthree : next (next (next p)) = returned e := by
    cases p <;> cases h <;> rfl
  rw [Function.iterate_add_apply]
  exact (congrArg next^[m] hthree).trans (Function.iterate_fixed rfl m)

end Phase

/-- What happens next, to one client and to the connections. -/
inductive ServingEvent where
  /-- A frame is put into the client's queue, by whoever holds the client. -/
  | queue (f : Frame)
  /-- Nobody holds the client any more. -/
  | release
  /-- Another thread does something with the connections; what it sends to the client, or the close, is
  put into the queue. -/
  | operate (op : Operation Outbound)
  /-- In a pass, the next frame is taken and written, or cannot be written. -/
  | take (succeeds : Bool)
  /-- Between passes, the thread looks at the client's own frames. -/
  | read (i : Inbound)
  /-- When the rounds are over, the thread goes on by one step. -/
  | leave

namespace ServingEvent

def operation? : ServingEvent → Option (Operation Outbound)
  | operate op => some op
  | _ => none

def isLeave : ServingEvent → Bool
  | leave => true
  | _ => false

def isServers : ServingEvent → Bool
  | take _ | read _ | leave => true
  | _ => false

end ServingEvent

structure Serving where
  session : Session
  outbound : Outbound
  history : History Outbound
  phase : Phase
  /-- The frames that came into the queue, in order. -/
  queued : List Frame
  /-- The frames that were written, in order. -/
  written : List Frame
  /-- What was taken without being written: a close, or a frame whose writing failed. -/
  unwritten : List Frame
  /-- The rounds that did not end the loop. -/
  rounds : List (PassEnd × Inbound)

namespace Serving

def start (before : List (Operation Outbound)) (peer : String) : Serving where
  session := (Session.accept (History.run before).connections peer).2
  outbound := .ofPeer peer
  history := (History.run before).step (.register (.ofPeer peer))
  phase := .writing
  queued := []
  written := []
  unwritten := []
  rounds := []

def put (s : Serving) (f : Frame) : Serving :=
  if s.outbound.isHeld ∧ s.outbound.isServed then
    { s with outbound := s.outbound.put f, queued := s.queued ++ [f] }
  else s

def framesOf (s : Serving) (op : Operation Outbound) : List Frame :=
  ((s.history.step op).done.drop s.history.done.length).filterMap fun a =>
    if a.entry.id = s.session.id then some (Outbound.frameOf a) else none

def takeNext (s : Serving) (succeeds : Bool) : Serving :=
  match s.outbound.queue with
  | [] => { s with phase := .afterPass (if s.outbound.isHeld then .caughtUp else .closing) }
  | .close :: rest =>
    { s with
      outbound := { s.outbound with queue := rest }
      unwritten := s.unwritten ++ [.close]
      phase := .afterPass .closing }
  | f :: rest =>
    if succeeds then
      { s with outbound := { s.outbound with queue := rest }, written := s.written ++ [f] }
    else
      { s with
        outbound := { s.outbound with queue := rest }
        unwritten := s.unwritten ++ [f]
        phase := .afterPass .failed }

def readNext (s : Serving) (i : Inbound) : Serving :=
  match s.session.round .caughtUp i with
  | .ok session =>
    { s with session, phase := .writing, rounds := s.rounds ++ [(.caughtUp, i)] }
  | .error e => { s with phase := .ended e }

def step (s : Serving) : ServingEvent → Serving
  | .queue f => s.put f
  | .release => { s with outbound := { s.outbound with isHeld := false } }
  | .operate op => (s.framesOf op).foldl put { s with history := s.history.step op }
  | .take succeeds => if s.phase = .writing then s.takeNext succeeds else s
  | .read i => if s.phase = .reading then s.readNext i else s
  | .leave =>
    match s.phase with
    | .ended e => { s with phase := .leaving e }
    | .leaving e =>
      { s with history := s.history.step (.finish s.session e), phase := .unregistered e }
    | .unregistered e =>
      { s with outbound := { s.outbound with isServed := false }, phase := .returned e }
    | _ => s

def after (s : Serving) (events : List ServingEvent) : Serving := events.foldl step s

/-- The frames still queued that come before the first close. -/
def waiting (s : Serving) : List Frame :=
  if .close ∈ s.unwritten then [] else s.outbound.queue.takeWhile (· ≠ .close)

/-! ### The queue -/

structure Sound (s : Serving) : Prop where
  /-- Frames are taken in the order in which they came. -/
  order : s.queued = s.written ++ s.unwritten ++ s.outbound.queue
  not_close : .close ∉ s.written
  /-- Only the frame that ends the last pass is taken without being written. -/
  last : s.unwritten = [] ∨ s.phase.isServing = false ∧ ∃ f, s.unwritten = [f]

theorem sound_start (before : List (Operation Outbound)) (peer : String) :
    (start before peer).Sound where
  order := rfl
  not_close := not_mem_nil
  last := .inl rfl

theorem exists_put (s : Serving) (f : Frame) :
    ∃ outbound queued, s.put f = { s with outbound, queued } := by
  unfold put
  split
  · exact ⟨_, _, rfl⟩
  · exact ⟨s.outbound, s.queued, rfl⟩

theorem exists_puts (s : Serving) (fs : List Frame) :
    ∃ outbound queued, fs.foldl put s = { s with outbound, queued } := by
  induction fs generalizing s with
  | nil => exact ⟨s.outbound, s.queued, rfl⟩
  | cons f fs ih =>
    obtain ⟨outbound, queued, hput⟩ := s.exists_put f
    obtain ⟨outbound', queued', hputs⟩ := ih (s.put f)
    exact ⟨outbound', queued', by rw [foldl_cons, hputs, hput]⟩

namespace Sound

variable {s : Serving} (hs : s.Sound)
include hs

theorem put (f : Frame) : (s.put f).Sound := by
  unfold Serving.put Outbound.put
  split
  · next hopen => exact ⟨by simp [hopen.2, hs.order], hs.not_close, hs.last⟩
  · exact hs

theorem unwritten_of_serving (h : s.phase.isServing = true) : s.unwritten = [] :=
  hs.last.resolve_right fun hended => Bool.false_ne_true (hended.1.symm.trans h)

theorem takeNext (h : s.phase = .writing) (succeeds : Bool) : (s.takeNext succeeds).Sound := by
  have hnone : s.unwritten = [] := hs.unwritten_of_serving (h ▸ rfl)
  have horder := hs.order
  unfold Serving.takeNext
  split
  · exact ⟨horder, hs.not_close, .inl hnone⟩
  · next rest hqueue =>
    refine ⟨?_, hs.not_close, .inr ⟨rfl, .close, by simp [hnone]⟩⟩
    simp [horder, hqueue]
  · next f rest hne hqueue =>
    split
    · refine ⟨?_, ?_, .inl hnone⟩
      · simp [horder, hqueue, hnone]
      · rw [mem_append, mem_singleton, not_or]
        exact ⟨hs.not_close, fun hclose => hne hclose.symm⟩
    · refine ⟨?_, hs.not_close, .inr ⟨rfl, f, by simp [hnone]⟩⟩
      simp [horder, hqueue]

theorem readNext (h : s.phase = .reading) (i : Inbound) : (s.readNext i).Sound := by
  have hnone : s.unwritten = [] := hs.unwritten_of_serving (h ▸ rfl)
  unfold Serving.readNext
  split <;> exact ⟨hs.order, hs.not_close, .inl hnone⟩

theorem step (ev : ServingEvent) : (s.step ev).Sound := by
  cases ev with
  | queue f => exact hs.put f
  | release => exact ⟨hs.order, hs.not_close, hs.last⟩
  | operate op =>
    have hoperated : Sound { s with history := s.history.step op } :=
      ⟨hs.order, hs.not_close, hs.last⟩
    exact foldlRecOn _ _ hoperated fun _ hs f _ => hs.put f
  | take succeeds =>
    rw [Serving.step]
    split
    · next hwriting => exact hs.takeNext hwriting succeeds
    · exact hs
  | read i =>
    rw [Serving.step]
    split
    · next hreading => exact hs.readNext hreading i
    · exact hs
  | leave =>
    have hended (hserving : s.phase.isServing = false) (t : Serving)
        (h : t.queued = s.queued ∧ t.written = s.written ∧ t.unwritten = s.unwritten ∧
          t.outbound.queue = s.outbound.queue ∧ t.phase.isServing = false) : t.Sound := by
      obtain ⟨hqueued, hwritten, hunwritten, hqueue, hphase⟩ := h
      refine ⟨?_, hwritten ▸ hs.not_close, ?_⟩
      · rw [hqueued, hwritten, hunwritten, hqueue]
        exact hs.order
      · rw [hunwritten]
        exact hs.last.imp_right fun h => ⟨hphase, h.2⟩
    rw [Serving.step]
    split
    · next hphase => exact hended (hphase ▸ rfl) _ ⟨rfl, rfl, rfl, rfl, rfl⟩
    · next hphase => exact hended (hphase ▸ rfl) _ ⟨rfl, rfl, rfl, rfl, rfl⟩
    · next hphase => exact hended (hphase ▸ rfl) _ ⟨rfl, rfl, rfl, rfl, rfl⟩
    · exact hs

theorem after (events : List ServingEvent) : (s.after events).Sound :=
  foldlRecOn events _ hs fun _ hs ev _ => hs.step ev

end Sound

/-! ### What is written -/

private theorem unwritten_close {s : Serving} {events : List ServingEvent}
    (hclose : ∀ f ∈ s.unwritten, f = .close) (hevents : ∀ ev ∈ events, ev ≠ .take false) :
    ∀ f ∈ (s.after events).unwritten, f = .close := by
  induction events generalizing s with
  | nil => exact hclose
  | cons ev events ih =>
    obtain ⟨hfirst, hrest⟩ := forall_mem_cons.mp hevents
    refine ih ?_ hrest
    cases ev with
    | queue f =>
      obtain ⟨outbound, queued, hput⟩ := s.exists_put f
      rw [step, hput]
      exact hclose
    | release => exact hclose
    | operate op =>
      obtain ⟨outbound, queued, hputs⟩ :=
        exists_puts { s with history := s.history.step op } (s.framesOf op)
      rw [step, hputs]
      exact hclose
    | take succeeds =>
      obtain rfl : succeeds = true := by
        cases succeeds with
        | true => rfl
        | false => exact absurd rfl hfirst
      rw [step]
      split
      · unfold takeNext
        split
        · exact hclose
        · exact forall_mem_append.mpr ⟨hclose, forall_mem_singleton.mpr rfl⟩
        · simpa using hclose
      · exact hclose
    | read i =>
      rw [step]
      split
      · unfold readNext
        split <;> exact hclose
      · exact hclose
    | leave =>
      rw [step]
      split <;> exact hclose

namespace Sound

variable {s : Serving} (hs : s.Sound)
include hs

theorem written_kept : ∀ f ∈ s.written, decide (f ≠ .close) = true := by
  intro f hf
  have hne : f ≠ .close := fun hclose => hs.not_close (hclose ▸ hf)
  simpa using hne

theorem written_prefix : s.written <+: s.queued.takeWhile (· ≠ .close) := by
  rw [hs.order, append_assoc, takeWhile_append_of_pos hs.written_kept]
  exact prefix_append _ _

theorem written_waiting (hclose : ∀ f ∈ s.unwritten, f = .close) :
    s.written ++ s.waiting = s.queued.takeWhile (· ≠ .close) := by
  rw [hs.order, append_assoc, takeWhile_append_of_pos hs.written_kept, waiting]
  congr 1
  obtain hnone | ⟨-, f, hf⟩ := hs.last
  · simp [hnone]
  · obtain rfl : f = .close := hclose f (by simp [hf])
    simp [hf]

end Sound

/-! ### The passes -/

private theorem takeNext_closed_iff {s : Serving} (h : s.phase = .writing) (succeeds : Bool) :
    (s.step (.take succeeds)).phase = .ended .closed ↔
      s.outbound.queue.head? = some .close ∨
        s.outbound.queue = [] ∧ s.outbound.isHeld = false := by
  rw [step, if_pos h]
  unfold takeNext
  split
  · next hqueue => cases hheld : s.outbound.isHeld <;> simp [hqueue, Phase.afterPass]
  · next rest hqueue => simp [hqueue, Phase.afterPass]
  · next f rest hne hqueue =>
    have hne : f ≠ .close := hne
    cases succeeds <;> simp [hqueue, hne, h, Phase.afterPass]

private theorem takeNext_reading_iff {s : Serving} (h : s.phase = .writing) (succeeds : Bool) :
    (s.step (.take succeeds)).phase = .reading ↔
      s.outbound.queue = [] ∧ s.outbound.isHeld = true := by
  rw [step, if_pos h]
  unfold takeNext
  split
  · next hqueue => cases hheld : s.outbound.isHeld <;> simp [hqueue, Phase.afterPass]
  · next rest hqueue => simp [hqueue, Phase.afterPass]
  · next f rest hne hqueue => cases succeeds <;> simp [hqueue, h, Phase.afterPass]

def turns (p : Pass) : List ServingEvent :=
  replicate p.written.length (.take true) ++ [.take (p.ending ≠ .failed)]

private theorem after_take {s : Serving} (h : s.phase = .writing) {f : Frame} {rest : List Frame}
    (hf : f ≠ .close) (hqueue : s.outbound.queue = f :: rest) :
    s.step (.take true) =
      { s with
        outbound := { s.outbound with queue := rest }, written := s.written ++ [f] } := by
  rw [step, if_pos h]
  unfold takeNext
  rw [hqueue]
  cases f with
  | close => exact absurd rfl hf
  | _ => rfl

private theorem over_cons {f : Frame} (hf : f ≠ .close) {capacity : Option Nat}
    (hcapacity : capacity ≠ some 0) (isHeld : Bool) (rest : List Frame) :
    Pass.over isHeld capacity (f :: rest) =
      { Pass.over isHeld (capacity.map (· - 1)) rest with
        written := f :: (Pass.over isHeld (capacity.map (· - 1)) rest).written } := by
  rcases capacity with _ | _ | n
  · cases f <;> first | rfl | exact absurd rfl hf
  · exact absurd rfl hcapacity
  · cases f <;> first | rfl | exact absurd rfl hf

private theorem after_turns {s : Serving} (h : s.phase = .writing) (capacity : Option Nat) :
    let pass := s.outbound.write capacity
    let t := s.after (turns pass.1)
    t.outbound = pass.2 ∧ t.written = s.written ++ pass.1.written ∧
      t.phase = .afterPass pass.1.ending := by
  induction hqueue : s.outbound.queue generalizing s capacity with
  | nil =>
    have hsame : { s.outbound with queue := [] } = s.outbound := by rw [← hqueue]
    simp only [Outbound.write, hqueue, Pass.over, hsame]
    cases hheld : s.outbound.isHeld <;>
      simp [turns, after, step, h, takeNext, hqueue, hheld]
  | cons f rest ih =>
    simp only [Outbound.write, hqueue]
    by_cases hf : f = .close
    · subst hf
      simp [Pass.over, turns, after, step, h, takeNext, hqueue]
    · by_cases hcapacity : capacity = some 0
      · subst hcapacity
        cases f <;> simp_all [Pass.over, turns, after, step, takeNext]
      · rw [over_cons hf hcapacity]
        let next : Serving :=
          { s with outbound := { s.outbound with queue := rest }, written := s.written ++ [f] }
        let p := Pass.over s.outbound.isHeld (capacity.map (· - 1)) rest
        obtain ⟨houtbound, hwritten, hphase⟩ : (next.after (turns p)).outbound =
            { next.outbound with queue := p.rest } ∧
            (next.after (turns p)).written = next.written ++ p.written ∧
            (next.after (turns p)).phase = .afterPass p.ending :=
          ih (s := next) h (capacity.map (· - 1)) rfl
        have hturns : s.after (turns { p with written := f :: p.written }) =
            next.after (turns p) := by
          change (s.step (.take true)).after _ = _
          rw [after_take h hf hqueue]
          rfl
        rw [hturns, houtbound, hwritten, hphase]
        exact ⟨rfl, append_assoc _ _ _, rfl⟩

/-! ### The rounds -/

/-- The rounds so far have led to where the session stands, and one more ends it if it has ended. -/
structure Served (accepted : Session) (s : Serving) : Prop where
  rounds : accepted.serve s.rounds = .ok s.session
  ended : ∀ e, s.phase.ending? = some e → ∃ wrote read, s.session.round wrote read = .error e

private theorem served_start (before : List (Operation Outbound)) (peer : String) :
    Served (start before peer).session (start before peer) where
  rounds := rfl
  ended := by
    rintro e ⟨⟩

theorem serve_concat {accepted session : Session} {rounds : List (PassEnd × Inbound)}
    (h : accepted.serve rounds = .ok session) (wrote : PassEnd) (read : Inbound) :
    accepted.serve (rounds ++ [(wrote, read)]) = session.round wrote read := by
  induction rounds generalizing accepted with
  | nil =>
    obtain rfl : accepted = session := Except.ok.inj h
    rw [nil_append, Session.serve]
    cases accepted.round wrote read <;> rfl
  | cons round rounds ih =>
    obtain ⟨wrote', read'⟩ := round
    rw [Session.serve] at h
    rw [cons_append, Session.serve]
    split at h
    · exact ih h
    · cases h

private theorem afterPass_ended {session : Session} {p : PassEnd} {e : Ending}
    (h : (Phase.afterPass p).ending? = some e) : ∃ read, session.round p read = .error e := by
  cases p with
  | caughtUp => cases h
  | closing =>
    cases h
    exact ⟨.gone, rfl⟩
  | failed =>
    cases h
    exact ⟨.gone, rfl⟩

namespace Served

variable {accepted : Session} {s : Serving} (hs : Served accepted s)
include hs

theorem of_same {t : Serving} (hrounds : t.rounds = s.rounds) (hsession : t.session = s.session)
    (hphase : t.phase.ending? = s.phase.ending?) : Served accepted t := by
  refine ⟨by rw [hrounds, hsession]; exact hs.rounds, fun e he => ?_⟩
  rw [hsession]
  exact hs.ended e (hphase ▸ he)

theorem takeNext (succeeds : Bool) : Served accepted (s.takeNext succeeds) := by
  have hpass {t : Serving} (hrounds : t.rounds = s.rounds) (hsession : t.session = s.session)
      {p : PassEnd} (hphase : t.phase = .afterPass p) : Served accepted t := by
    refine ⟨by rw [hrounds, hsession]; exact hs.rounds, fun e he => ?_⟩
    rw [hsession]
    exact ⟨p, afterPass_ended (hphase ▸ he)⟩
  unfold Serving.takeNext
  split
  · exact hpass rfl rfl rfl
  · exact hpass (p := .closing) rfl rfl rfl
  · split
    · exact hs.of_same rfl rfl rfl
    · exact hpass (p := .failed) rfl rfl rfl

theorem readNext (i : Inbound) : Served accepted (s.readNext i) := by
  unfold Serving.readNext
  split
  · next session hround => exact ⟨(serve_concat hs.rounds .caughtUp i).trans hround, nofun⟩
  · next e hround =>
    refine ⟨hs.rounds, fun e' he' => ⟨.caughtUp, i, ?_⟩⟩
    cases he'
    exact hround

theorem step (ev : ServingEvent) : Served accepted (s.step ev) := by
  cases ev with
  | queue f =>
    obtain ⟨outbound, queued, hput⟩ := s.exists_put f
    rw [Serving.step, hput]
    exact hs.of_same rfl rfl rfl
  | release => exact hs.of_same rfl rfl rfl
  | operate op =>
    obtain ⟨outbound, queued, hputs⟩ :=
      exists_puts { s with history := s.history.step op } (s.framesOf op)
    rw [Serving.step, hputs]
    exact hs.of_same rfl rfl rfl
  | take succeeds =>
    rw [Serving.step]
    split
    · exact hs.takeNext succeeds
    · exact hs
  | read i =>
    rw [Serving.step]
    split
    · exact hs.readNext i
    · exact hs
  | leave =>
    rw [Serving.step]
    split
    · next hphase => exact hs.of_same rfl rfl (by rw [hphase]; rfl)
    · next hphase => exact hs.of_same rfl rfl (by rw [hphase]; rfl)
    · next hphase => exact hs.of_same rfl rfl (by rw [hphase]; rfl)
    · exact hs

theorem after (events : List ServingEvent) : Served accepted (s.after events) :=
  foldlRecOn events _ hs fun _ hs ev _ => hs.step ev

end Served

/-! ### After the rounds -/

private theorem step_ended {s : Serving} (h : s.phase.isServing = false) (ev : ServingEvent) :
    (s.step ev).written = s.written ∧
      (s.step ev).phase = if ev.isLeave then s.phase.next else s.phase := by
  cases ev with
  | queue f =>
    obtain ⟨outbound, queued, hput⟩ := s.exists_put f
    rw [step, hput]
    exact ⟨rfl, rfl⟩
  | release => exact ⟨rfl, rfl⟩
  | operate op =>
    obtain ⟨outbound, queued, hputs⟩ :=
      exists_puts { s with history := s.history.step op } (s.framesOf op)
    rw [step, hputs]
    exact ⟨rfl, rfl⟩
  | take succeeds =>
    rw [step, if_neg (by rintro hphase; rw [hphase] at h; cases h)]
    exact ⟨rfl, rfl⟩
  | read i =>
    rw [step, if_neg (by rintro hphase; rw [hphase] at h; cases h)]
    exact ⟨rfl, rfl⟩
  | leave =>
    rw [step]
    cases hphase : s.phase <;> first | exact ⟨rfl, rfl⟩ | exact ⟨rfl, hphase⟩

private theorem after_ended {s : Serving} (h : s.phase.isServing = false)
    (later : List ServingEvent) :
    (s.after later).written = s.written ∧
      (s.after later).phase = Phase.next^[later.countP ServingEvent.isLeave] s.phase := by
  induction later generalizing s with
  | nil => exact ⟨rfl, rfl⟩
  | cons ev later ih =>
    obtain ⟨hwritten, hphase⟩ := step_ended h ev
    have hserving : (s.step ev).phase.isServing = false := by
      rw [hphase]
      split
      · exact Phase.isServing_next h
      · exact h
    obtain ⟨ihwritten, ihphase⟩ := ih hserving
    refine ⟨ihwritten.trans hwritten, ?_⟩
    refine ihphase.trans ?_
    rw [hphase, countP_cons]
    split
    · rw [Function.iterate_succ_apply]
    · rfl

/-! ### The registration -/

private theorem round_id {session session' : Session} {wrote : PassEnd} {read : Inbound}
    (h : session.round wrote read = .ok session') : session'.id = session.id := by
  unfold Session.round at h
  split at h
  · cases h
  · cases h
  · cases h
    rfl
  · split at h
    · cases h
      rfl
    · cases h
  · cases h
  · cases h

/-- The client's own entry: it was registered, and is gone when the registration has ended. -/
structure Registered (own : Entry Outbound) (s : Serving) : Prop where
  history : s.history.Sound
  id : s.session.id = own.id
  registered : own ∈ s.history.registered
  gone : s.phase.hasUnregistered = true → own ∉ s.history.connections.entries

private theorem registered_start (before : List (Operation Outbound)) (peer : String) :
    Registered ⟨(History.run before).connections.nextId, .ofPeer peer⟩ (start before peer) where
  history := (History.sound_run before).step (.register (.ofPeer peer))
  id := rfl
  registered := mem_append_right _ (mem_singleton_self _)
  gone := nofun

namespace Registered

variable {own : Entry Outbound} {s : Serving} (hs : Registered own s)
include hs

theorem of_same {t : Serving} (hhistory : t.history = s.history)
    (hid : t.session.id = s.session.id)
    (hphase : t.phase.hasUnregistered = true → s.phase.hasUnregistered = true) :
    Registered own t := by
  refine ⟨hhistory ▸ hs.history, hid.trans hs.id, hhistory ▸ hs.registered, fun h => ?_⟩
  rw [hhistory]
  exact hs.gone (hphase h)

theorem operate {t : Serving} (op : Operation Outbound) (hhistory : t.history = s.history.step op)
    (hid : t.session.id = s.session.id)
    (hphase : t.phase.hasUnregistered = true → s.phase.hasUnregistered = true ∨ op.keeps own = false) :
    Registered own t := by
  refine ⟨hhistory ▸ hs.history.step op, hid.trans hs.id, ?_, fun h => ?_⟩
  · rw [hhistory, History.registered_step]
    exact mem_append_left _ hs.registered
  · rw [hhistory, hs.history.mem_step_iff hs.registered op]
    rintro ⟨hthere, hkeeps⟩
    obtain hgone | hremoves := hphase h
    · exact hs.gone hgone hthere
    · exact Bool.false_ne_true (hremoves.symm.trans hkeeps)

theorem takeNext (succeeds : Bool) : Registered own (s.takeNext succeeds) := by
  have hpass {t : Serving} (hhistory : t.history = s.history) (hsession : t.session = s.session)
      {p : PassEnd} (hphase : t.phase = .afterPass p) : Registered own t := by
    refine hs.of_same hhistory (congrArg Session.id hsession) fun hunregistered => ?_
    rw [hphase] at hunregistered
    cases p <;> cases hunregistered
  unfold Serving.takeNext
  split
  · exact hpass rfl rfl rfl
  · exact hpass (p := .closing) rfl rfl rfl
  · split
    · exact hs.of_same rfl rfl fun h => h
    · exact hpass (p := .failed) rfl rfl rfl

theorem readNext (i : Inbound) : Registered own (s.readNext i) := by
  unfold Serving.readNext
  split
  · next session hround => exact hs.of_same rfl (round_id hround) nofun
  · exact hs.of_same rfl rfl nofun

theorem step (ev : ServingEvent) : Registered own (s.step ev) := by
  cases ev with
  | queue f =>
    obtain ⟨outbound, queued, hput⟩ := s.exists_put f
    rw [Serving.step, hput]
    exact hs.of_same rfl rfl fun h => h
  | release => exact hs.of_same rfl rfl fun h => h
  | operate op =>
    obtain ⟨outbound, queued, hputs⟩ :=
      exists_puts { s with history := s.history.step op } (s.framesOf op)
    rw [Serving.step, hputs]
    exact hs.operate op rfl rfl .inl
  | take succeeds =>
    rw [Serving.step]
    split
    · exact hs.takeNext succeeds
    · exact hs
  | read i =>
    rw [Serving.step]
    split
    · exact hs.readNext i
    · exact hs
  | leave =>
    rw [Serving.step]
    split
    · exact hs.of_same rfl rfl nofun
    · next e _ =>
      refine hs.operate (.finish s.session e) rfl rfl fun _ => .inr ?_
      simp [Operation.keeps, Operation.unregisters?, hs.id]
    · next hphase => exact hs.of_same rfl rfl fun _ => hphase ▸ rfl
    · exact hs

theorem after (events : List ServingEvent) : Registered own (s.after events) :=
  foldlRecOn events _ hs fun _ hs ev _ => hs.step ev

theorem not_mem (h : s.phase.hasUnregistered = true) :
    ∀ e ∈ s.history.connections.entries, e.id ≠ own.id := by
  intro e he hid
  have hown := hs.history.eq_of_id (hs.history.mem_registered.mpr (.inl he)) hs.registered hid
  exact hs.gone h (hown ▸ he)

end Registered

/-- What the thread that serves the client does to the connections, if anything, is to end the client's
own registration. -/
theorem history_of_isServers {s : Serving} {ev : ServingEvent} (h : ev.isServers = true) :
    (s.step ev).history = s.history ∨
      ∃ e, (s.step ev).history = s.history.step (.finish s.session e) := by
  cases ev with
  | queue f => cases h
  | release => cases h
  | operate op => cases h
  | take succeeds =>
    left
    rw [step]
    split
    · unfold takeNext
      split
      · rfl
      · rfl
      · split <;> rfl
    · rfl
  | read i =>
    left
    rw [step]
    split
    · unfold readNext
      split <;> rfl
    · rfl
  | leave =>
    rw [step]
    split
    · exact .inl rfl
    · exact .inr ⟨_, rfl⟩
    · exact .inl rfl
    · exact .inl rfl

private theorem finish_others (h : History Outbound) (session : Session) (e : Ending) :
    let h' := h.step (.finish session e)
    (h'.connections.entries.filter fun e => e.id ≠ session.id) =
        (h.connections.entries.filter fun e => e.id ≠ session.id) ∧
      h'.done = h.done ∧
      ∀ a ∈ h'.pending, a ∈ h.pending ∨ ∃ own : Entry Outbound, a = .close own ∧ own.id = session.id := by
  intro h'
  have hfinish : h' = h.withdraw session.id (h.connections.unregister session.id) := rfl
  rw [hfinish]
  cases hfind : h.connections.entries.find? fun e => e.id = session.id with
  | none =>
    rw [History.withdraw_eq_self hfind]
    exact ⟨rfl, rfl, fun a ha => .inl ha⟩
  | some own =>
    rw [History.withdraw_of_find hfind]
    refine ⟨by simp, rfl, fun a ha => ?_⟩
    rcases mem_append.mp ha with hold | hnew
    · exact .inl hold
    · exact .inr ⟨own, mem_singleton.mp hnew, by simpa using find?_some hfind⟩

/-- Frames reach the socket in order, and nothing follows a close. Whatever else happens between the steps
of the thread that serves a client, what it has written is the first of what came into the queue before
the first close; as long as writing succeeds, it is that together with what is still queued before the
first close. A pass ends for good at a close, or where nothing is queued and nobody holds the client any
more, and without interference it is what `Outbound.write` does at once.

The rounds are those of `Session.serve`. However they end, nothing is written from then on, and the thread
returns by its next steps; the registration has then ended, and the thread has done nothing to any other
one. -/
theorem frames_written_in_order (before : List (Operation Outbound)) (peer : String)
    (events : List ServingEvent) :
    let accepted := start before peer
    let s := accepted.after events
    ((∀ ev ∈ events, ev ≠ .take false) →
      s.written ++ s.waiting = s.queued.takeWhile (· ≠ .close)) ∧
    s.written <+: s.queued.takeWhile (· ≠ .close) ∧
    (s.phase = .writing →
      (∀ succeeds, (s.step (.take succeeds)).phase = .ended .closed ↔
        s.outbound.queue.head? = some .close ∨
          s.outbound.queue = [] ∧ s.outbound.isHeld = false) ∧
      (∀ succeeds, (s.step (.take succeeds)).phase = .reading ↔
        s.outbound.queue = [] ∧ s.outbound.isHeld = true) ∧
      ∀ capacity,
        let pass := s.outbound.write capacity
        let t := s.after (turns pass.1)
        t.outbound = pass.2 ∧ t.written = s.written ++ pass.1.written ∧
          t.phase = .afterPass pass.1.ending) ∧
    accepted.session.serve s.rounds = .ok s.session ∧
    (∀ e, s.phase.ending? = some e →
      (∃ last, accepted.session.serve (s.rounds ++ [last]) = .error e) ∧
      ∀ later, (s.after later).written = s.written ∧
        (3 ≤ later.countP ServingEvent.isLeave → (s.after later).phase = .returned e)) ∧
    (s.phase.hasUnregistered = true →
      ∀ entry ∈ s.history.connections.entries, entry.id ≠ accepted.session.id) ∧
    ∀ ev : ServingEvent, ev.isServers = true →
      ((s.step ev).history.connections.entries.filter fun e => e.id ≠ accepted.session.id) =
          (s.history.connections.entries.filter fun e => e.id ≠ accepted.session.id) ∧
        (s.step ev).history.done = s.history.done ∧
        ∀ a ∈ (s.step ev).history.pending, a ∈ s.history.pending ∨
          ∃ own : Entry Outbound, a = .close own ∧ own.id = accepted.session.id := by
  intro accepted s
  have hsound : s.Sound := (sound_start before peer).after events
  have hserved : Served accepted.session s := (served_start before peer).after events
  have hregistered := (registered_start before peer).after events
  refine ⟨fun hevents => ?_, hsound.written_prefix, fun hwriting => ?_, hserved.rounds, ?_,
    hregistered.not_mem, ?_⟩
  · exact hsound.written_waiting (unwritten_close (fun f hf => absurd hf not_mem_nil) hevents)
  · exact ⟨takeNext_closed_iff hwriting, takeNext_reading_iff hwriting, after_turns hwriting⟩
  · intro e he
    have hended : s.phase.isServing = false := Phase.isServing_iff.mpr ⟨e, he⟩
    obtain ⟨wrote, read, hround⟩ := hserved.ended e he
    refine ⟨⟨(wrote, read), (serve_concat hserved.rounds wrote read).trans hround⟩, fun later => ?_⟩
    obtain ⟨hwritten, hphase⟩ := after_ended hended later
    exact ⟨hwritten, fun hleaves => hphase.trans (Phase.iterate_next he hleaves)⟩
  · intro ev hev
    have hid : s.session.id = accepted.session.id := hregistered.id
    obtain hsame | ⟨e, hfinish⟩ := history_of_isServers (s := s) hev
    · rw [hsame]
      exact ⟨rfl, rfl, fun a ha => .inl ha⟩
    · rw [hfinish, ← hid]
      exact finish_others s.history s.session e

/-- A reload is queued before all connections are closed, and one frame after that. -/
example :
    let s := (start [] "127.0.0.1:9").after
      [.operate (.broadcast .ascending (fun _ => none) "reload"), .queue .ping,
        .operate (.closeAll .ascending), .queue (.text "late"), .take true, .take true, .take true,
        .leave, .leave, .leave]
    s.written = [.text "reload", .ping] ∧ s.phase = .returned .closed ∧
      s.outbound.queue = [.text "late"] ∧ s.history.connections.entries = [] := by
  decide

end Serving

end Pagewright.Reload
