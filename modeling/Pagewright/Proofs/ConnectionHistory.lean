import Mathlib.Data.List.Induction
import Mathlib.Data.List.Nodup
import Mathlib.Data.List.Perm.Basic
import Pagewright.Proofs.BroadcastPass
import Pagewright.Reload.Session

/-!
What happens to the connections while readers, pinging threads and broadcasts use them. Every
operation is one step, whichever thread makes it; only the closing that ends a call of `unregister`
comes in a step of its own, after other operations perhaps.
-/
namespace Pagewright.Reload

open List

variable {α : Type}

/-- What a thread does with the connections. -/
inductive Operation (α : Type) where
  | register (connection : α)
  | unregister (id : Nat)
  /-- A connection is pinged; if that fails, it is unregistered. -/
  | ping (id : Nat) (failure : Option String)
  /-- A client is served no longer. -/
  | finish (session : Session) (ending : Ending)
  | broadcast (order : Traversal α) (failure : Entry α → Option String) (message : String)
  | closeAll (order : Traversal α)
  /-- A call of `unregister` that has removed an entry closes it, and returns. -/
  | resume (call : Nat)

namespace Operation

def connection? : Operation α → Option α
  | .register connection => some connection
  | _ => none

def unregisters? : Operation α → Option Nat
  | .unregister id => some id
  | .ping id (some _) => some id
  | .finish session _ => some session.id
  | _ => none

def message? : Operation α → Option String
  | .broadcast _ _ message => some message
  | _ => none

def keeps : Operation α → Entry α → Bool
  | .broadcast _ failure _, e => (failure e).isNone
  | .closeAll _, _ => false
  | op, e => op.unregisters? ≠ some e.id

theorem keeps_of_unregisters {op : Operation α} {id : Nat} (hop : op.unregisters? = some id)
    (e : Entry α) : op.keeps e = decide (e.id ≠ id) := by
  have hkeeps : op.keeps e = decide (op.unregisters? ≠ some e.id) := by
    cases op <;> first | rfl | cases hop
  simp [hkeeps, hop, eq_comm]

end Operation

def removal? (e : Entry α) (ops : List (Operation α)) : Option (Operation α) :=
  ops.find? fun op => !op.keeps e

structure History (α : Type) where
  connections : Connections α
  /-- The entries made by registrations, in order. -/
  registered : List (Entry α)
  /-- The ids for which a call of `unregister` was answered that they were registered. -/
  removed : List Nat
  /-- How many connections broadcasts have dropped. -/
  pruned : Nat
  /-- How many connections were closed by closing all. -/
  drained : Nat
  /-- What calls of `unregister` have still to do before they return. -/
  pending : List (Action α)
  /-- What was done with connections, in order. -/
  done : List (Action α)

namespace History

def start : History α := ⟨.empty, [], [], 0, 0, [], []⟩

def withdraw {β : Type} (h : History α) (id : Nat) (change : Change α β) : History α :=
  { h with
    connections := change.connections
    removed := if (h.connections.unregister id).answer then h.removed ++ [id] else h.removed
    pending := h.pending ++ change.actions }

def step (h : History α) : Operation α → History α
  | .register connection =>
    let change := h.connections.register connection
    { h with
      connections := change.connections
      registered := h.registered ++ [⟨change.answer, connection⟩]
      done := h.done ++ change.actions }
  | .unregister id => h.withdraw id (h.connections.unregister id)
  | .ping id none => { h with connections := (h.connections.afterPing id none).connections }
  | .ping id (some reason) => h.withdraw id (h.connections.afterPing id (some reason))
  | .finish session ending => h.withdraw session.id (session.finish h.connections ending)
  | .broadcast order failure message =>
    let change := h.connections.broadcastIn order failure message
    { h with
      connections := change.connections
      pruned := h.pruned + change.answer.pruned
      done := h.done ++ change.actions }
  | .closeAll order =>
    let change := h.connections.closeAllIn order
    { h with
      connections := change.connections
      drained := h.drained + change.actions.length
      done := h.done ++ change.actions }
  | .resume call =>
    { h with pending := h.pending.eraseIdx call, done := h.done ++ h.pending[call]?.toList }

def run (ops : List (Operation α)) : History α := ops.foldl step start

@[simp] theorem run_concat (ops : List (Operation α)) (op : Operation α) :
    run (ops ++ [op]) = (run ops).step op := by
  rw [run, List.foldl_append]
  rfl

/-- The entries that were closed, or will be when the calls return. -/
def closed (h : History α) : List (Entry α) := Reload.closed (h.done ++ h.pending)

structure Sound (h : History α) : Prop where
  ids : h.registered.map Entry.id = List.range h.connections.nextId
  accounted : (h.connections.entries ++ h.closed).Perm h.registered
  removed_nodup : h.removed.Nodup
  removed_closed : ∀ id ∈ h.removed, ∃ e ∈ h.closed, e.id = id
  pending_close : ∀ a ∈ h.pending, ∃ e, a = .close e ∧ e.id ∈ h.removed
  closed_length : h.closed.length = h.removed.length + h.pruned + h.drained
  acted : ∀ a ∈ h.done ++ h.pending, a.entry ∈ h.registered

namespace Sound

variable {h : History α} (hs : h.Sound)
include hs

theorem registered_nodup : (h.registered.map Entry.id).Nodup := by
  rw [hs.ids]
  exact List.nodup_range

theorem id_lt {e : Entry α} (he : e ∈ h.registered) : e.id < h.connections.nextId := by
  rw [← List.mem_range, ← hs.ids]
  exact List.mem_map_of_mem he

theorem eq_of_id {e e' : Entry α} (he : e ∈ h.registered) (he' : e' ∈ h.registered)
    (hid : e.id = e'.id) : e = e' :=
  List.inj_on_of_nodup_map hs.registered_nodup he he' hid

@[simp] theorem mem_registered {e : Entry α} :
    e ∈ h.registered ↔ e ∈ h.connections.entries ∨ e ∈ h.closed := by
  rw [← hs.accounted.mem_iff, List.mem_append]

theorem parts_nodup : ((h.connections.entries ++ h.closed).map Entry.id).Nodup :=
  (hs.accounted.map Entry.id).nodup_iff.mpr hs.registered_nodup

theorem distinct : h.connections.Distinct := by
  have hparts := hs.parts_nodup
  rw [List.map_append, List.nodup_append] at hparts
  exact hparts.1

theorem id_ne_of_closed {e e' : Entry α} (he : e ∈ h.connections.entries) (he' : e' ∈ h.closed) :
    e.id ≠ e'.id := by
  have hparts := hs.parts_nodup
  rw [List.map_append, List.nodup_append] at hparts
  exact hparts.2.2 _ (List.mem_map_of_mem he) _ (List.mem_map_of_mem he')

theorem account {entries closing closed : List (Entry α)}
    (hparts : entries ++ closing ~ h.connections.entries) (hclosed : closed ~ h.closed ++ closing) :
    entries ++ closed ~ h.registered :=
  calc entries ++ closed
    _ ~ entries ++ (closing ++ h.closed) := (hclosed.trans perm_append_comm).append_left _
    _ ~ entries ++ closing ++ h.closed := by rw [append_assoc]
    _ ~ h.connections.entries ++ h.closed := hparts.append_right _
    _ ~ h.registered := hs.accounted

theorem not_mem_removed {e : Entry α} (he : e ∈ h.connections.entries) : e.id ∉ h.removed := by
  intro hid
  obtain ⟨e', he', heq⟩ := hs.removed_closed e.id hid
  exact hs.id_ne_of_closed he he' heq.symm

end Sound

/-! ### One step -/

theorem closed_doing (h : History α) (actions : List (Action α)) :
    Reload.closed (h.done ++ actions ++ h.pending) ~ h.closed ++ Reload.closed actions := by
  simp only [closed, closed_append, append_assoc]
  exact perm_append_comm.append_left _

private theorem pending_perm (pending : List (Action α)) (call : Nat) :
    pending[call]?.toList ++ pending.eraseIdx call ~ pending := by
  by_cases hcall : call < pending.length
  · rw [getElem?_eq_getElem hcall]
    exact getElem_cons_eraseIdx_perm hcall
  · rw [getElem?_eq_none (by omega), eraseIdx_of_length_le (by omega)]
    exact .refl _

theorem withdraw_eq_self {h : History α} {id : Nat}
    (hfind : (h.connections.entries.find? fun e => e.id = id) = none) :
    h.withdraw id (h.connections.unregister id) = h := by
  simp [withdraw, Connections.unregister, hfind]

theorem withdraw_of_find {h : History α} {id : Nat} {e : Entry α}
    (hfind : (h.connections.entries.find? fun e => e.id = id) = some e) :
    h.withdraw id (h.connections.unregister id) =
      { h with
        connections := { h.connections with
          entries := h.connections.entries.filter fun e => e.id ≠ id }
        removed := h.removed ++ [id]
        pending := h.pending ++ [.close e] } := by
  simp [withdraw, Connections.unregister, hfind]

theorem mem_withdraw_iff {h : History α} {e : Entry α} {op : Operation α} {id : Nat}
    (hop : op.unregisters? = some id) :
    e ∈ (h.withdraw id (h.connections.unregister id)).connections.entries ↔
      e ∈ h.connections.entries ∧ op.keeps e := by
  obtain ⟨hleft, -, -⟩ := h.connections.unregister_eq id
  rw [History.withdraw, hleft, mem_filter, Operation.keeps_of_unregisters hop]

theorem sound_start : (start : History α).Sound where
  ids := rfl
  accounted := .nil
  removed_nodup := nodup_nil
  removed_closed := by simp [start]
  pending_close := by simp [start]
  closed_length := rfl
  acted := by simp [start]

namespace Sound

variable {h : History α} (hs : h.Sound)
include hs

theorem step_register (connection : α) : (h.step (.register connection)).Sound where
  ids := by
    simp [step, Connections.register, hs.ids, range_succ]
  accounted := by
    have haccounted := hs.accounted.append_right [⟨h.connections.nextId, connection⟩]
    refine Perm.trans ?_ haccounted
    simp only [step, Connections.register, closed, append_nil, append_assoc]
    exact perm_append_comm.append_left _
  removed_nodup := hs.removed_nodup
  removed_closed := by simpa [step, Connections.register, closed] using hs.removed_closed
  pending_close := hs.pending_close
  closed_length := by simpa [step, Connections.register, closed] using hs.closed_length
  acted := by
    intro a ha
    refine mem_append_left _ (hs.acted a ?_)
    simpa [step, Connections.register] using ha

theorem withdraw (id : Nat) : (h.withdraw id (h.connections.unregister id)).Sound := by
  cases hfind : h.connections.entries.find? fun e => e.id = id with
  | none => rwa [withdraw_eq_self hfind]
  | some e =>
    have he : e ∈ h.connections.entries := mem_of_find?_eq_some hfind
    have hid : e.id = id := by simpa using find?_some hfind
    have hclosed : Reload.closed (h.done ++ (h.pending ++ [.close e])) = h.closed ++ [e] := by
      rw [← append_assoc, closed_append]
      rfl
    rw [withdraw_of_find hfind]
    exact {
      ids := hs.ids
      accounted := hs.account (hs.distinct.perm_of_find hfind) (.of_eq hclosed)
      removed_nodup := by
        rw [← concat_eq_append]
        exact hs.removed_nodup.concat (hid ▸ hs.not_mem_removed he)
      removed_closed := by
        rw [History.closed, hclosed]
        intro id' hid'
        rcases mem_append.mp hid' with hold | hnew
        · obtain ⟨e', he', heq⟩ := hs.removed_closed id' hold
          exact ⟨e', mem_append_left _ he', heq⟩
        · exact ⟨e, by simp, hid.trans (mem_singleton.mp hnew).symm⟩
      pending_close := by
        intro a ha
        rcases mem_append.mp ha with hold | hnew
        · obtain ⟨e', heq, hid'⟩ := hs.pending_close a hold
          exact ⟨e', heq, mem_append_left _ hid'⟩
        · exact ⟨e, mem_singleton.mp hnew, by simp [hid]⟩
      closed_length := by
        rw [History.closed, hclosed, length_append, length_append, hs.closed_length]
        simp only [length_singleton]
        omega
      acted := by
        intro a ha
        rcases mem_append.mp (append_assoc .. ▸ ha) with hold | hnew
        · exact hs.acted a hold
        · rw [mem_singleton.mp hnew]
          exact hs.mem_registered.mpr (.inl he) }

theorem acting {left : Connections α} {actions : List (Action α)} (pruned drained : Nat)
    (hnext : left.nextId = h.connections.nextId)
    (hparts : left.entries ++ Reload.closed actions ~ h.connections.entries)
    (hlength : (Reload.closed actions).length = pruned + drained)
    (hactions : ∀ a ∈ actions, a.entry ∈ h.connections.entries) :
    Sound { h with
      connections := left
      pruned := h.pruned + pruned
      drained := h.drained + drained
      done := h.done ++ actions } := by
  have hclosed := h.closed_doing actions
  exact {
    ids := by rw [hnext]; exact hs.ids
    accounted := hs.account hparts hclosed
    removed_nodup := hs.removed_nodup
    removed_closed := by
      intro id hid
      obtain ⟨e, he, heq⟩ := hs.removed_closed id hid
      exact ⟨e, hclosed.mem_iff.mpr (mem_append_left _ he), heq⟩
    pending_close := hs.pending_close
    closed_length := by
      have hold := hs.closed_length
      have hall := hclosed.length_eq
      rw [length_append] at hall
      simp only [History.closed] at hold hall ⊢
      omega
    acted := by
      intro a ha
      simp only [mem_append] at ha
      obtain (hdone | hnew) | hpending := ha
      · exact hs.acted a (mem_append_left _ hdone)
      · exact hs.mem_registered.mpr (.inl (hactions a hnew))
      · exact hs.acted a (mem_append_right _ hpending) }

theorem step_resume (call : Nat) : (h.step (.resume call)).Sound := by
  have hacts : (h.step (.resume call)).done ++ (h.step (.resume call)).pending ~
      h.done ++ h.pending := by
    simp only [step, append_assoc]
    exact (pending_perm h.pending call).append_left _
  have hclosed : (h.step (.resume call)).closed ~ h.closed := hacts.filterMap _
  exact {
    ids := hs.ids
    accounted := (hclosed.append_left _).trans hs.accounted
    removed_nodup := hs.removed_nodup
    removed_closed := by
      intro id hid
      obtain ⟨e, he, heq⟩ := hs.removed_closed id hid
      exact ⟨e, hclosed.mem_iff.mpr he, heq⟩
    pending_close := fun a ha => hs.pending_close a (mem_of_mem_eraseIdx ha)
    closed_length := hclosed.length_eq.trans hs.closed_length
    acted := fun a ha => hs.acted a (hacts.mem_iff.mp ha) }

theorem step (op : Operation α) : (h.step op).Sound := by
  cases op with
  | register connection => exact hs.step_register connection
  | unregister id => exact hs.withdraw id
  | ping id failure =>
    cases failure with
    | none => exact hs
    | some reason => exact hs.withdraw id
  | finish session ending => exact hs.withdraw session.id
  | broadcast order failure message =>
    have hactions := h.connections.broadcastIn_acts order failure message
    exact hs.acting _ 0 (h.connections.broadcastIn_nextId order failure message)
      (h.connections.broadcastIn_perm order failure message)
      (h.connections.broadcastIn_pruned order failure message).symm hactions
  | closeAll order =>
    refine hs.acting 0 _ rfl ?_ ?_ (h.connections.closeAllIn_acts order)
    · rw [Connections.closed_closeAllIn]
      exact order.perm _
    · rw [Connections.closed_closeAllIn, Nat.zero_add, Connections.closeAllIn, length_map]
  | resume call => exact hs.step_resume call

theorem mem_step_iff {e : Entry α} (he : e ∈ h.registered) (op : Operation α) :
    e ∈ (h.step op).connections.entries ↔ e ∈ h.connections.entries ∧ op.keeps e := by
  cases op with
  | register connection =>
    have hne : e ≠ ⟨h.connections.nextId, connection⟩ := by
      intro heq
      have hlt := hs.id_lt he
      rw [heq] at hlt
      exact Nat.lt_irrefl _ hlt
    simp [History.step, Connections.register, hne, Operation.keeps, Operation.unregisters?]
  | unregister id => exact mem_withdraw_iff rfl
  | ping id failure =>
    cases failure with
    | none => simp [History.step, Connections.afterPing, Operation.keeps, Operation.unregisters?]
    | some reason => exact mem_withdraw_iff rfl
  | finish session ending => exact mem_withdraw_iff rfl
  | broadcast order failure message =>
    rw [History.step, (h.connections.broadcastIn_entries order failure message).mem_iff, mem_filter]
    rfl
  | closeAll order => simp [History.step, Connections.closeAllIn, Operation.keeps]
  | resume call => simp [History.step, Operation.keeps, Operation.unregisters?]

theorem mem_removed_withdraw_iff {e : Entry α} (he : e ∈ h.registered) {op : Operation α} {id : Nat}
    (hop : op.unregisters? = some id) :
    e.id ∈ (h.withdraw id (h.connections.unregister id)).removed ↔
      e.id ∈ h.removed ∨ (e ∈ h.connections.entries ∧ op.unregisters? = some e.id) := by
  rw [hop, Option.some_inj]
  cases hfind : h.connections.entries.find? fun e => e.id = id with
  | none =>
    have hnone : ¬(e ∈ h.connections.entries ∧ id = e.id) := by
      rintro ⟨hmem, hid⟩
      have hne := find?_eq_none.mp hfind e hmem
      simp [hid] at hne
    rw [withdraw_eq_self hfind, or_iff_left hnone]
  | some e' =>
    have he' : e' ∈ h.connections.entries := mem_of_find?_eq_some hfind
    have hid' : e'.id = id := by simpa using find?_some hfind
    rw [withdraw_of_find hfind, mem_append, mem_singleton, eq_comm]
    refine or_congr_right ⟨fun hid => ⟨?_, hid⟩, And.right⟩
    -- the entry that was found has this id too, so it is this one
    rwa [hs.eq_of_id he (hs.mem_registered.mpr (.inl he')) (hid.symm.trans hid'.symm)]

theorem mem_removed_step_iff {e : Entry α} (he : e ∈ h.registered) (op : Operation α) :
    e.id ∈ (h.step op).removed ↔
      e.id ∈ h.removed ∨ (e ∈ h.connections.entries ∧ op.unregisters? = some e.id) := by
  cases op with
  | unregister id => exact hs.mem_removed_withdraw_iff he rfl
  | ping id failure =>
    cases failure with
    | none => simp [History.step, Operation.unregisters?]
    | some reason => exact hs.mem_removed_withdraw_iff he rfl
  | finish session ending => exact hs.mem_removed_withdraw_iff he rfl
  | _ => simp [History.step, Operation.unregisters?]

end Sound

theorem registered_step (h : History α) (op : Operation α) :
    (h.step op).registered =
      h.registered ++ op.connection?.toList.map fun x => ⟨h.connections.nextId, x⟩ := by
  cases op with
  | register connection => rfl
  | ping id failure => cases failure <;> simp [step, withdraw, Operation.connection?]
  | _ => simp [step, withdraw, Operation.connection?]

/-! ### Whole runs -/

theorem sound_run (ops : List (Operation α)) : (run ops).Sound := by
  induction ops using reverseRecOn with
  | nil => exact sound_start
  | append_singleton ops op ih =>
    rw [run_concat]
    exact ih.step op

@[simp] private theorem connections_registered (ops : List (Operation α)) :
    (run ops).registered.map Entry.connection = ops.filterMap Operation.connection? := by
  induction ops using reverseRecOn with
  | nil => rfl
  | append_singleton ops op ih =>
    rw [run_concat, registered_step, map_append, ih, filterMap_append]
    cases hop : op.connection? <;> simp [hop]

/-! What became of an entry is decided by the first operation after its registration that does not
keep it. The induction is on the operations since then, the last one taken off. -/

@[simp] theorem removal?_concat (e : Entry α) (ops : List (Operation α)) (op : Operation α) :
    removal? e (ops ++ [op]) = (removal? e ops).or (if op.keeps e then none else some op) := by
  rw [removal?, find?_append, removal?]
  cases hop : op.keeps e <;> simp [hop]

/-- How an entry fared since its registration is read off the operations since then. -/
theorem since_registration (before : List (Operation α)) (connection : α)
    (after : List (Operation α)) {e : Entry α}
    (he : e = ⟨(run before).connections.nextId, connection⟩) :
    let h := run (before ++ .register connection :: after)
    e ∈ h.registered ∧ (e ∈ h.connections.entries ↔ removal? e after = none) ∧
      (e.id ∈ h.removed ↔ ∃ op, removal? e after = some op ∧ op.unregisters? = some e.id) := by
  induction after using reverseRecOn with
  | nil =>
    have hbefore := sound_run before
    rw [run_concat]
    -- an id that was taken away had been given out, and this one is new
    have hfresh : e.id ∉ (run before).removed := by
      intro hid
      obtain ⟨e', he', heq⟩ := hbefore.removed_closed e.id hid
      have hlt := hbefore.id_lt (hbefore.mem_registered.mpr (.inr he'))
      rw [heq, he] at hlt
      exact Nat.lt_irrefl _ hlt
    refine ⟨?_, ?_, ?_⟩
    · simp [step, Connections.register, he]
    · simp [step, Connections.register, he, removal?]
    · simpa [step, removal?] using hfresh
  | append_singleton after op ih =>
    have hs := sound_run (before ++ .register connection :: after)
    obtain ⟨hregistered, hthere, hremoved⟩ := ih
    rw [← cons_append, ← append_assoc, run_concat]
    refine ⟨?_, ?_, ?_⟩
    · rw [registered_step]
      exact mem_append_left _ hregistered
    -- the last operation counts only if none before it has removed the entry
    · rw [hs.mem_step_iff hregistered, hthere, removal?_concat]
      cases removal? e after <;> simp
    · rw [hs.mem_removed_step_iff hregistered, hremoved, hthere, removal?_concat]
      cases removal? e after with
      | some first => simp
      | none =>
        cases hkeeps : op.keeps e with
        | false => simp
        | true =>
          have hother : op.unregisters? ≠ some e.id := by
            intro hop
            simp [Operation.keeps_of_unregisters hop] at hkeeps
          simpa using hother

def closes (id : Nat) (actions : List (Action α)) : Nat :=
  ((Reload.closed actions).map Entry.id).count id

namespace Sound

variable {h : History α} (hs : h.Sound)
include hs

theorem closes_add {e : Entry α} (he : e ∈ h.registered) :
    (h.connections.entries.map Entry.id).count e.id +
      (closes e.id h.done + closes e.id h.pending) = 1 := by
  have hcount := (hs.accounted.map Entry.id).count_eq e.id
  rw [count_eq_one_of_mem hs.registered_nodup (mem_map_of_mem he), History.closed, closed_append,
    map_append, map_append, count_append, count_append] at hcount
  exact hcount

theorem count_id {e : Entry α} (he : e ∈ h.connections.entries) :
    (h.connections.entries.map Entry.id).count e.id = 1 :=
  count_eq_one_of_mem hs.distinct (mem_map_of_mem he)

theorem count_id_of_not_mem {e : Entry α} (he : e ∈ h.registered)
    (hgone : e ∉ h.connections.entries) : (h.connections.entries.map Entry.id).count e.id = 0 := by
  rw [count_eq_zero]
  intro hid
  obtain ⟨e', he', heq⟩ := mem_map.mp hid
  rw [hs.eq_of_id (hs.mem_registered.mpr (.inl he')) he heq] at he'
  exact hgone he'

theorem mem_removed_of_closes_pending {id : Nat} (hpending : closes id h.pending ≠ 0) :
    id ∈ h.removed := by
  have hid := count_pos_iff.mp (Nat.pos_of_ne_zero hpending)
  obtain ⟨e, he, rfl⟩ := mem_map.mp hid
  obtain ⟨a, ha, hclosed⟩ := mem_filterMap.mp he
  obtain ⟨e', rfl, hremoved⟩ := hs.pending_close a ha
  rwa [← Option.some.inj hclosed]

theorem length_registered :
    h.registered.length = h.connections.size + h.removed.length + h.pruned + h.drained := by
  have hlength := hs.accounted.length_eq
  rw [length_append, hs.closed_length] at hlength
  rw [Connections.size]
  omega

theorem nextId_eq : h.connections.nextId = h.registered.length := by
  rw [← length_map Entry.id, hs.ids, length_range]

theorem unregister_answer {e : Entry α} (he : e ∈ h.registered) :
    (h.connections.unregister e.id).answer ↔ e ∈ h.connections.entries := by
  obtain ⟨-, -, hanswer⟩ := h.connections.unregister_eq e.id
  rw [hanswer, Option.isSome_iff_exists]
  constructor
  · rintro ⟨e', hfind⟩
    have he' := mem_of_find?_eq_some hfind
    have hid : e'.id = e.id := by simpa using find?_some hfind
    rwa [← hs.eq_of_id (hs.mem_registered.mpr (.inl he')) he hid]
  · intro hthere
    exact ⟨e, hs.distinct.find_id hthere⟩

end Sound

/-- Ids are given out once. Every registration is accounted for: it is there, or one call of
`unregister`, one broadcast or one closing of all has removed it. The connection of an entry that was
removed is closed once, as soon as the call has returned; that of one that is there is not closed. The
passes over all entries can be in any order, that of `Connections` too. -/
theorem life_cycle (ops : List (Operation α)) :
    let h := run ops
    (∀ failure message, h.connections.broadcast failure message =
      h.connections.broadcastIn .ascending (fun e => failure e.connection) message) ∧
    h.connections.closeAll = h.connections.closeAllIn .ascending ∧
    h.registered.map Entry.connection = ops.filterMap Operation.connection? ∧
    (h.registered.map Entry.id).Nodup ∧
    h.connections.nextId = h.registered.length ∧
    (∀ op id, op.unregisters? = some id → ∀ e ∈ h.connections.entries,
      e.id ≠ id → e ∈ (h.step op).connections.entries) ∧
    h.registered.length = h.connections.size + h.removed.length + h.pruned + h.drained ∧
    h.removed.Nodup ∧
    (∀ a ∈ h.done ++ h.pending, a.entry ∈ h.registered) ∧
    (∀ e ∈ h.registered,
      (e ∈ h.connections.entries → closes e.id h.done = 0 ∧ closes e.id h.pending = 0) ∧
      (e ∉ h.connections.entries → closes e.id h.done + closes e.id h.pending = 1) ∧
      (closes e.id h.pending ≠ 0 → e.id ∈ h.removed) ∧
      ((h.connections.unregister e.id).answer ↔ e ∈ h.connections.entries)) ∧
    ∀ before connection after, ops = before ++ .register connection :: after →
      let e : Entry α := ⟨(run before).connections.nextId, connection⟩
      e ∈ h.registered ∧ (e ∈ h.connections.entries ↔ removal? e after = none) ∧
        (e.id ∈ h.removed ↔ ∃ op, removal? e after = some op ∧ op.unregisters? = some e.id) := by
  intro h
  have hs : h.Sound := sound_run ops
  refine ⟨h.connections.broadcast_eq_broadcastIn, h.connections.closeAll_eq_closeAllIn,
    connections_registered ops, hs.registered_nodup, hs.nextId_eq, ?_,
    hs.length_registered, hs.removed_nodup, hs.acted, ?_, ?_⟩
  · intro op id hop e he hid
    refine (hs.mem_step_iff (hs.mem_registered.mpr (.inl he)) op).mpr ⟨he, ?_⟩
    simpa [Operation.keeps_of_unregisters hop] using hid
  · intro e he
    have hadd := hs.closes_add he
    refine ⟨?_, ?_, hs.mem_removed_of_closes_pending, hs.unregister_answer he⟩
    · intro hthere
      have hone := hs.count_id hthere
      omega
    · intro hgone
      have hzero := hs.count_id_of_not_mem he hgone
      omega
  · rintro before connection after rfl
    exact since_registration before connection after rfl

end History

end Pagewright.Reload
