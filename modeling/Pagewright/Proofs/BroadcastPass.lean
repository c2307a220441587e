import Pagewright.Reload.Connections

/-!
The operations that visit every connection, in an order that nothing fixes, and what each operation
does with the entries it is given: they are kept, or they are closed, and none is lost.
-/
namespace Pagewright.Reload

variable {α : Type}

/-- An order in which entries are visited, each of them once. It can depend on which there are. -/
structure Traversal (α : Type) where
  visit : List (Entry α) → List (Entry α)
  perm (entries : List (Entry α)) : (visit entries).Perm entries

def Traversal.ascending : Traversal α := ⟨id, .refl⟩

def Action.entry : Action α → Entry α
  | .send e _ => e
  | .close e => e

def Action.closed? : Action α → Option (Entry α)
  | .send _ _ => none
  | .close e => some e

def Action.textTo? (id : Nat) : Action α → Option String
  | .send e text => if e.id = id then some text else none
  | .close _ => none

def closed (actions : List (Action α)) : List (Entry α) := actions.filterMap Action.closed?

def texts (id : Nat) (actions : List (Action α)) : List String :=
  actions.filterMap (Action.textTo? id)

@[simp] theorem closed_append (as bs : List (Action α)) :
    closed (as ++ bs) = closed as ++ closed bs :=
  List.filterMap_append

@[simp] theorem texts_append (id : Nat) (as bs : List (Action α)) :
    texts id (as ++ bs) = texts id as ++ texts id bs :=
  List.filterMap_append

namespace Connections

def visit (failure : Entry α → Option String) (message : String) (pass : Change α BroadcastReport)
    (e : Entry α) : Change α BroadcastReport :=
  match failure e with
  | none =>
    { pass with
      answer := { pass.answer with sent := pass.answer.sent + 1 }
      connections := { pass.connections with entries := pass.connections.entries ++ [e] }
      actions := pass.actions ++ [.send e message] }
  | some reason =>
    { pass with
      answer := { pass.answer with pruned := pass.answer.pruned + 1 }
      actions := pass.actions ++ [.close e]
      log := pass.log ++ [⟨.warn, "sending to " ++ clientName e.id ++ ": " ++ reason⟩] }

/-- A broadcast, one entry after the other. Of a connection that is registered twice, the sending can
fail for one entry only. -/
def broadcastIn (c : Connections α) (order : Traversal α) (failure : Entry α → Option String)
    (message : String) : Change α BroadcastReport :=
  (order.visit c.entries).foldl (visit failure message) ⟨⟨0, 0⟩, { c with entries := [] }, [], []⟩

def closeAllIn (c : Connections α) (order : Traversal α) : Change α Unit :=
  ⟨(), { c with entries := [] }, (order.visit c.entries).map .close, []⟩

private theorem foldl_visit (failure : Entry α → Option String) (message : String)
    (entries : List (Entry α)) (pass : Change α BroadcastReport) :
    entries.foldl (visit failure message) pass =
      { answer := ⟨pass.answer.sent + (entries.filter fun e => (failure e).isNone).length,
          pass.answer.pruned + (entries.filter fun e => !(failure e).isNone).length⟩
        connections := { pass.connections with
          entries := pass.connections.entries ++ entries.filter fun e => (failure e).isNone }
        actions := pass.actions ++ entries.map fun e => deliver (fun _ => failure e) message e
        log := pass.log ++ entries.filterMap fun e => failureRecord? (fun _ => failure e) e } := by
  induction entries generalizing pass with
  | nil => simp
  | cons e entries ih =>
    rw [List.foldl_cons, ih]
    cases h : failure e with
    | none => simp [visit, h, deliver, failureRecord?]; omega
    | some reason => simp [visit, h, deliver, failureRecord?]; omega

theorem broadcastIn_eq (c : Connections α) (order : Traversal α)
    (failure : Entry α → Option String) (message : String) :
    c.broadcastIn order failure message =
      { answer := ⟨((order.visit c.entries).filter fun e => (failure e).isNone).length,
          ((order.visit c.entries).filter fun e => !(failure e).isNone).length⟩
        connections := { c with
          entries := (order.visit c.entries).filter fun e => (failure e).isNone }
        actions := (order.visit c.entries).map fun e => deliver (fun _ => failure e) message e
        log := (order.visit c.entries).filterMap fun e =>
          failureRecord? (fun _ => failure e) e } := by
  simp [broadcastIn, foldl_visit]

theorem broadcast_eq_broadcastIn (c : Connections α) (failure : α → Option String)
    (message : String) :
    c.broadcast failure message =
      c.broadcastIn .ascending (fun e => failure e.connection) message := by
  have hsplit :=
    (List.filter_append_perm (fun e => (failure e.connection).isNone) c.entries).length_eq
  rw [List.length_append] at hsplit
  rw [broadcastIn_eq, broadcast, Change.mk.injEq, BroadcastReport.mk.injEq]
  refine ⟨⟨rfl, ?_⟩, rfl, rfl, rfl⟩
  simp only [Traversal.ascending, id]
  omega

theorem closeAll_eq_closeAllIn (c : Connections α) : c.closeAll = c.closeAllIn .ascending :=
  rfl

section Pass

variable (c : Connections α) (order : Traversal α) (failure : Entry α → Option String)
  (message : String)

@[simp] theorem broadcastIn_nextId :
    (c.broadcastIn order failure message).connections.nextId = c.nextId := by
  rw [broadcastIn_eq]

@[simp] theorem broadcastIn_sent :
    (c.broadcastIn order failure message).answer.sent =
      (c.broadcastIn order failure message).connections.size := by
  rw [broadcastIn_eq, size]

theorem broadcastIn_sent_add_pruned :
    (c.broadcastIn order failure message).answer.sent +
      (c.broadcastIn order failure message).answer.pruned = c.size := by
  rw [broadcastIn_eq, size, ← (order.perm c.entries).length_eq, ← List.length_append]
  exact (List.filter_append_perm _ _).length_eq

/-- The order of the pass makes no difference. -/
theorem broadcastIn_order (order' : Traversal α) :
    let b := c.broadcastIn order failure message
    let b' := c.broadcastIn order' failure message
    b.answer = b'.answer ∧ b.connections.nextId = b'.connections.nextId ∧
      b.connections.entries.Perm b'.connections.entries ∧ b.actions.Perm b'.actions ∧
      b.log.Perm b'.log := by
  have hperm := (order.perm c.entries).trans (order'.perm c.entries).symm
  rw [broadcastIn_eq, broadcastIn_eq]
  refine ⟨?_, rfl, hperm.filter _, hperm.map _, hperm.filterMap _⟩
  rw [(hperm.filter _).length_eq, (hperm.filter _).length_eq]

theorem broadcastIn_entries :
    (c.broadcastIn order failure message).connections.entries.Perm
      (c.entries.filter fun e => (failure e).isNone) := by
  rw [broadcastIn_eq]
  exact (order.perm c.entries).filter _

@[simp] theorem closed_deliver (entries : List (Entry α)) :
    closed (entries.map fun e => deliver (fun _ => failure e) message e) =
      entries.filter fun e => !(failure e).isNone := by
  rw [closed, List.filterMap_map, ← List.filterMap_eq_filter]
  congr 1
  funext e
  cases h : failure e <;> simp [deliver, Action.closed?, Option.guard, h]

theorem broadcastIn_pruned :
    (c.broadcastIn order failure message).answer.pruned =
      (closed (c.broadcastIn order failure message).actions).length := by
  rw [broadcastIn_eq, closed_deliver]

theorem broadcastIn_perm :
    ((c.broadcastIn order failure message).connections.entries ++
      closed (c.broadcastIn order failure message).actions).Perm c.entries := by
  rw [broadcastIn_eq, closed_deliver]
  exact (List.filter_append_perm _ _).trans (order.perm c.entries)

theorem texts_broadcastIn (id : Nat) :
    texts id (c.broadcastIn order failure message).actions =
      (((order.visit c.entries).filter fun e => e.id = id).filter fun e =>
        (failure e).isNone).map fun _ => message := by
  rw [broadcastIn_eq, texts, List.filterMap_map, List.filter_filter, ← List.filterMap_eq_map,
    List.filterMap_filter]
  congr 1
  funext e
  cases h : failure e <;> simp [deliver, Action.textTo?, h]

theorem broadcastIn_acts :
    ∀ a ∈ (c.broadcastIn order failure message).actions, a.entry ∈ c.entries := by
  rw [broadcastIn_eq]
  intro a ha
  obtain ⟨e, he, rfl⟩ := List.mem_map.mp ha
  have hentry : (deliver (fun _ => failure e) message e).entry = e := by
    unfold deliver
    split <;> rfl
  rw [hentry]
  exact (order.perm c.entries).mem_iff.mp he

theorem closeAllIn_acts : ∀ a ∈ (c.closeAllIn order).actions, a.entry ∈ c.entries := by
  intro a ha
  obtain ⟨e, he, rfl⟩ := List.mem_map.mp ha
  exact (order.perm c.entries).mem_iff.mp he

@[simp] theorem closed_closeAllIn :
    closed (c.closeAllIn order).actions = order.visit c.entries := by
  simp [closeAllIn, closed, List.filterMap_map, Function.comp_def, Action.closed?]

end Pass

/-! ### One entry of each id -/

def Distinct (c : Connections α) : Prop := (c.entries.map Entry.id).Nodup

theorem unregister_eq (c : Connections α) (id : Nat) :
    (c.unregister id).connections = { c with entries := c.entries.filter fun e => e.id ≠ id } ∧
      (c.unregister id).actions = (c.entries.find? fun e => e.id = id).toList.map .close ∧
      (c.unregister id).answer = (c.entries.find? fun e => e.id = id).isSome := by
  unfold unregister
  cases hfind : c.entries.find? fun e => e.id = id with
  | some e => exact ⟨rfl, rfl, rfl⟩
  | none =>
    have hall : c.entries.filter (fun e => e.id ≠ id) = c.entries := by
      simpa [List.filter_eq_self] using hfind
    exact ⟨by rw [hall], rfl, rfl⟩

theorem filter_id {entries : List (Entry α)} (h : (entries.map Entry.id).Nodup) (id : Nat) :
    entries.filter (fun e => e.id = id) = (entries.find? fun e => e.id = id).toList := by
  induction entries with
  | nil => rfl
  | cons e entries ih =>
    rw [List.map_cons, List.nodup_cons] at h
    by_cases he : e.id = id
    · have hrest : entries.filter (fun e => e.id = id) = [] := by
        simp only [List.filter_eq_nil_iff, decide_eq_true_eq]
        intro e' he' hid
        exact h.1 (List.mem_map.mpr ⟨e', he', hid.trans he.symm⟩)
      simp [he, hrest]
    · simp [he, ih h.2]

theorem Distinct.find_id {c : Connections α} (h : c.Distinct) {e : Entry α} (he : e ∈ c.entries) :
    (c.entries.find? fun e' => e'.id = e.id) = some e := by
  have hmem : e ∈ (c.entries.find? fun e' => e'.id = e.id).toList := by
    rw [← filter_id h]
    simpa using he
  simpa using hmem

theorem Distinct.perm_of_find {c : Connections α} (h : c.Distinct) {id : Nat} {e : Entry α}
    (hfind : (c.entries.find? fun e => e.id = id) = some e) :
    ((c.entries.filter fun e => e.id ≠ id) ++ [e]).Perm c.entries := by
  have hfound : c.entries.filter (fun e => e.id = id) = [e] := by
    rw [filter_id h, hfind, Option.toList_some]
  rw [← hfound]
  simpa using List.filter_append_perm (fun e => decide (e.id ≠ id)) c.entries

end Connections

end Pagewright.Reload
