import Mathlib.Data.List.TakeWhile
import Pagewright.Proofs.ConnectionHistory

/-!
What a connection is sent: in their order, the messages of the broadcasts that are made while it is
registered.
-/
namespace Pagewright.Reload

open List

variable {α : Type}

namespace History

@[simp] private theorem texts_closes (id : Nat) (entries : List (Entry α)) :
    texts id (entries.map Action.close) = [] := by
  simp [texts, filterMap_map, Function.comp_def, Action.textTo?]

namespace Sound

variable {h : History α} (hs : h.Sound)
include hs

theorem filter_visit (order : Traversal α) (id : Nat) :
    (order.visit h.connections.entries).filter (fun e => e.id = id) =
      (h.connections.entries.find? fun e => e.id = id).toList := by
  have hperm := (order.perm h.connections.entries).filter (fun e => e.id = id)
  rw [Connections.filter_id hs.distinct] at hperm
  cases hfind : h.connections.entries.find? fun e => e.id = id with
  | none =>
    rw [hfind] at hperm
    exact hperm.eq_nil
  | some e =>
    rw [hfind] at hperm
    exact perm_singleton.mp hperm

theorem find_id_of_not_mem {e : Entry α} (he : e ∈ h.registered)
    (hgone : e ∉ h.connections.entries) :
    (h.connections.entries.find? fun e' => e'.id = e.id) = none := by
  rw [find?_eq_none]
  intro e' he' hid
  rw [hs.eq_of_id (hs.mem_registered.mpr (.inl he')) he (by simpa using hid)] at he'
  exact hgone he'

@[simp] theorem texts_pending (id : Nat) (call : Nat) : texts id h.pending[call]?.toList = [] := by
  cases hcall : h.pending[call]? with
  | none => rfl
  | some a =>
    obtain ⟨e, rfl, -⟩ := hs.pending_close a (mem_of_getElem? hcall)
    rfl

theorem texts_step {op : Operation α} (hop : op.message? = none) (id : Nat) :
    texts id (h.step op).done = texts id h.done := by
  cases op with
  | register connection => simp [History.step, Connections.register]
  | unregister id => rfl
  | ping id failure => cases failure <;> rfl
  | finish session ending => rfl
  | broadcast order failure message => cases hop
  | closeAll order => simp [History.step, Connections.closeAllIn]
  | resume call => simp [History.step, hs.texts_pending]

theorem texts_step_of_mem {e : Entry α} (he : e ∈ h.connections.entries) (op : Operation α) :
    texts e.id (h.step op).done =
      texts e.id h.done ++ if op.keeps e then op.message?.toList else [] := by
  cases hop : op.message? with
  | none => simp [hs.texts_step hop]
  | some text =>
    cases op with
    | broadcast order failure message =>
      rw [History.step, texts_append, Connections.texts_broadcastIn, hs.filter_visit,
        hs.distinct.find_id he]
      cases hfails : failure e <;> simp_all [Operation.keeps, Operation.message?]
    | _ => cases hop

theorem texts_step_of_not_mem {e : Entry α} (he : e ∈ h.registered)
    (hgone : e ∉ h.connections.entries) (op : Operation α) :
    texts e.id (h.step op).done = texts e.id h.done := by
  cases hop : op.message? with
  | none => exact hs.texts_step hop e.id
  | some text =>
    cases op with
    | broadcast order failure message =>
      rw [History.step, texts_append, Connections.texts_broadcastIn, hs.filter_visit,
        hs.find_id_of_not_mem he hgone]
      simp
    | _ => cases hop

theorem texts_fresh {id : Nat} (hid : h.connections.nextId ≤ id) : texts id h.done = [] := by
  rw [texts, filterMap_eq_nil_iff]
  intro a ha
  have hlt := hs.id_lt (hs.acted a (mem_append_left _ ha))
  cases a with
  | close e => rfl
  | send e text =>
    have hne : e.id ≠ id := by
      intro heq
      rw [Action.entry, heq] at hlt
      omega
    simp [Action.textTo?, hne]

end Sound

@[simp] theorem removal?_eq_none_iff (e : Entry α) (ops : List (Operation α)) :
    removal? e ops = none ↔ ∀ op ∈ ops, op.keeps e := by
  simp [removal?, find?_eq_none]

private theorem kept_concat_of_none {e : Entry α} {ops : List (Operation α)}
    (hnone : removal? e ops = none) (op : Operation α) :
    (ops ++ [op]).takeWhile (·.keeps e) = ops ++ if op.keeps e then [op] else [] := by
  rw [takeWhile_append_of_pos ((removal?_eq_none_iff e ops).mp hnone)]
  cases hop : op.keeps e <;> simp [hop]

private theorem kept_concat_of_some {e : Entry α} {ops : List (Operation α)} {first : Operation α}
    (hsome : removal? e ops = some first) (op : Operation α) :
    (ops ++ [op]).takeWhile (·.keeps e) = ops.takeWhile (·.keeps e) := by
  induction ops with
  | nil => cases hsome
  | cons next ops ih =>
    cases hnext : next.keeps e with
    | false => simp [hnext]
    | true =>
      have hrest : removal? e ops = some first := by simpa [removal?, hnext] using hsome
      simpa [hnext] using ih hrest

/-- An entry is sent the messages of the operations since its registration, up to the one that
removes it. -/
theorem texts_since_registration (before : List (Operation α)) (connection : α)
    (after : List (Operation α)) {e : Entry α}
    (he : e = ⟨(run before).connections.nextId, connection⟩) :
    texts e.id (run (before ++ .register connection :: after)).done =
      (after.takeWhile (·.keeps e)).filterMap Operation.message? := by
  induction after using reverseRecOn with
  | nil =>
    have hs := sound_run before
    rw [run_concat, hs.texts_step rfl]
    exact hs.texts_fresh (Nat.le_of_eq (congrArg Entry.id he).symm)
  | append_singleton after op ih =>
    have hs := sound_run (before ++ .register connection :: after)
    obtain ⟨hregistered, hthere, -⟩ := since_registration before connection after he
    rw [← cons_append, ← append_assoc, run_concat]
    -- the last operation is heard of by an entry that is still there, and by no other
    cases hremoval : removal? e after with
    | none =>
      have hall := (removal?_eq_none_iff e after).mp hremoval
      rw [hs.texts_step_of_mem (hthere.mpr hremoval), ih, kept_concat_of_none hremoval,
        filterMap_append, takeWhile_eq_self_iff.mpr hall]
      cases op.keeps e <;> cases hop : op.message? <;> simp [hop]
    | some first =>
      have hgone : e ∉ (run (before ++ .register connection :: after)).connections.entries := by
        rw [hthere, hremoval]
        exact Option.some_ne_none first
      rw [hs.texts_step_of_not_mem hregistered hgone, ih, kept_concat_of_some hremoval]

private theorem removal?_append_of_fails {e : Entry α} {upto rest : List (Operation α)}
    {op : Operation α} (hfails : op.keeps e = false) : removal? e (upto ++ op :: rest) ≠ none := by
  intro hnone
  have hkeeps := (removal?_eq_none_iff e _).mp hnone op (by simp)
  simp [hfails] at hkeeps

private theorem kept_append_of_fails {e : Entry α} (upto : List (Operation α))
    {rest : List (Operation α)} {op : Operation α} (hfails : op.keeps e = false) :
    (upto ++ op :: rest).takeWhile (·.keeps e) = upto.takeWhile (·.keeps e) := by
  induction upto with
  | nil => simp [hfails]
  | cons next upto ih => cases hnext : next.keeps e <;> simp [hnext, ih]

/-- A broadcast reports how many entries it reached and how many it dropped, whatever the order of
its pass. In a run, an entry is sent, in order, what was broadcast from its registration until it was
removed; a broadcast that cannot reach it removes it, and it is sent nothing from then on. -/
theorem broadcasts_delivered :
    (∀ (c : Connections α) (order : Traversal α) (failure : Entry α → Option String)
      (message : String),
      let b := c.broadcastIn order failure message
      b.answer.sent + b.answer.pruned = c.size ∧ b.answer.sent = b.connections.size ∧
      b.connections.entries ~ c.entries.filter (fun e => (failure e).isNone) ∧
      b.connections.nextId = c.nextId) ∧
    (∀ (c : Connections α) (order : Traversal α) (failure : α → Option String) (message : String),
      let b := c.broadcastIn order (fun e => failure e.connection) message
      let b' := c.broadcast failure message
      b.answer = b'.answer ∧ b.connections.nextId = b'.connections.nextId ∧
      b.connections.entries ~ b'.connections.entries ∧ b.actions ~ b'.actions ∧ b.log ~ b'.log) ∧
    ∀ (before : List (Operation α)) (connection : α) (after : List (Operation α)),
      let e : Entry α := ⟨(run before).connections.nextId, connection⟩
      let h := run (before ++ .register connection :: after)
      (e ∈ h.connections.entries ↔ ∀ op ∈ after, op.keeps e) ∧
      texts e.id h.done = (after.takeWhile (·.keeps e)).filterMap Operation.message? ∧
      (∀ a ∈ h.done, a.entry.id = e.id → a.entry = e) ∧
      ∀ order failure message rest, (failure e).isSome →
        let later := run (before ++ .register connection ::
          (after ++ .broadcast order failure message :: rest))
        e ∉ later.connections.entries ∧ texts e.id later.done = texts e.id h.done := by
  refine ⟨?_, ?_, ?_⟩
  · intro c order failure message
    exact ⟨c.broadcastIn_sent_add_pruned order failure message,
      c.broadcastIn_sent order failure message, c.broadcastIn_entries order failure message,
      c.broadcastIn_nextId order failure message⟩
  · intro c order failure message
    rw [Connections.broadcast_eq_broadcastIn]
    exact c.broadcastIn_order order _ message .ascending
  · intro before connection after e h
    have hs : h.Sound := sound_run _
    obtain ⟨hregistered, hthere, -⟩ := since_registration before connection after rfl
    have htexts := texts_since_registration before connection after rfl
    refine ⟨hthere.trans (removal?_eq_none_iff e after), htexts, ?_, ?_⟩
    · intro a ha hid
      exact hs.eq_of_id (hs.acted a (mem_append_left _ ha)) hregistered hid
    · intro order failure message rest hfails later
      have hkeeps : (Operation.broadcast order failure message).keeps e = false := by
        rw [Operation.keeps, Option.isNone_eq_false_iff]
        exact hfails
      obtain ⟨-, hlater, -⟩ := since_registration before connection
        (after ++ .broadcast order failure message :: rest) rfl
      refine ⟨fun hmem => removal?_append_of_fails hkeeps (hlater.mp hmem), ?_⟩
      rw [htexts, texts_since_registration before connection _ rfl,
        kept_append_of_fails after hkeeps]

end History

end Pagewright.Reload
