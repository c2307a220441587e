import Pagewright.Log
import Pagewright.Number.Decimal

/-!
The clients that are told to reload. Each registration has an id of its own, given out in ascending
order and never again. What is to be done with a connection is an `Action`; who holds the connections
carries it out.
-/
namespace Pagewright.Reload

def reloadMessage : String := "reload"

structure Entry (α : Type) where
  id : Nat
  connection : α
deriving DecidableEq, Repr

/-- The registered connections, their ids ascending. -/
structure Connections (α : Type) where
  nextId : Nat
  entries : List (Entry α)
deriving DecidableEq, Repr

/-- What is done with the connection of an entry. -/
inductive Action (α : Type) where
  | send (entry : Entry α) (text : String)
  | close (entry : Entry α)
deriving DecidableEq, Repr

structure BroadcastReport where
  sent : Nat
  pruned : Nat
deriving DecidableEq, Repr

structure Change (α β : Type) where
  answer : β
  connections : Connections α
  actions : List (Action α)
  log : List LogRecord

namespace Connections

variable {α : Type}

def empty : Connections α := ⟨0, []⟩

def size (c : Connections α) : Nat := c.entries.length

def isEmpty (c : Connections α) : Bool := c.entries.isEmpty

def clientName (id : Nat) : String := "reload client " ++ Decimal.intText id

def register (c : Connections α) (connection : α) : Change α Nat :=
  let entries := c.entries ++ [⟨c.nextId, connection⟩]
  { answer := c.nextId
    connections := ⟨c.nextId + 1, entries⟩
    actions := []
    log := [⟨.info, clientName c.nextId ++ " connected, " ++ Decimal.intText entries.length
      ++ " total"⟩] }

def unregister (c : Connections α) (id : Nat) : Change α Bool :=
  match c.entries.find? fun e => e.id = id with
  | none => ⟨false, c, [], []⟩
  | some e =>
    let entries := c.entries.filter fun e => e.id ≠ id
    { answer := true
      connections := { c with entries }
      actions := [.close e]
      log := [⟨.info, clientName id ++ " disconnected, " ++ Decimal.intText entries.length
        ++ " remaining"⟩] }

/-- What a broadcast does with an entry: one whose sending fails is closed. -/
def deliver (failure : α → Option String) (message : String) (e : Entry α) : Action α :=
  if (failure e.connection).isNone then .send e message else .close e

def failureRecord? (failure : α → Option String) (e : Entry α) : Option LogRecord :=
  (failure e.connection).map fun reason =>
    ⟨.warn, "sending to " ++ clientName e.id ++ ": " ++ reason⟩

def broadcast (c : Connections α) (failure : α → Option String) (message : String) :
    Change α BroadcastReport :=
  let kept := c.entries.filter fun e => (failure e.connection).isNone
  { answer := ⟨kept.length, c.entries.length - kept.length⟩
    connections := { c with entries := kept }
    actions := c.entries.map (deliver failure message)
    log := c.entries.filterMap (failureRecord? failure) }

def closeAll (c : Connections α) : Change α Unit :=
  ⟨(), { c with entries := [] }, c.entries.map .close, []⟩

/-- A connection was pinged to keep it alive. One that fails is removed, and pinged no more; the
answer tells whether pinging goes on. -/
def afterPing (c : Connections α) (id : Nat) (failure : Option String) : Change α Bool :=
  match failure with
  | none => ⟨true, c, [], []⟩
  | some reason =>
    let removed := c.unregister id
    { answer := false
      connections := removed.connections
      actions := removed.actions
      log := ⟨.warn, "ping to " ++ clientName id ++ " failed: " ++ reason⟩ :: removed.log }

end Connections

end Pagewright.Reload
