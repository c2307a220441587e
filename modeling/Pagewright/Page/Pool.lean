/-!
Contexts that wait to be used again. Each user of the pool has a guard, which holds a context from the
first time one is asked for. A context that has served its number of renders is not taken back; of a
pool that allows none every guard makes a new one.
-/
namespace Pagewright.Page

/-- A user of a pool, with its context once there is one. -/
structure Guard (α : Type) where
  held : Option α
deriving Repr, Inhabited

namespace Guard

variable {α : Type}

def holding (c : α) : Guard α := ⟨some c⟩

/-- The context of a guard; one that holds none yet is given the new one. -/
def context (g : Guard α) (new : α) : α := g.held.getD new

end Guard

structure Pool (α : Type) where
  /-- How many renders a context serves. -/
  maxRenders : Nat
  /-- The contexts that wait, the one to be used next first. -/
  idle : List α
deriving Repr, Inhabited

namespace Pool

variable {α : Type}

def new (maxRenders : Nat) : Pool α := ⟨maxRenders, []⟩

/-- A guard, holding a waiting context if there is one, and the pool without it. -/
def get (p : Pool α) : Guard α × Pool α :=
  if p.maxRenders = 0 then (⟨none⟩, p)
  else match p.idle with
    | [] => (⟨none⟩, p)
    | c :: rest => (.holding c, { p with idle := rest })

def put (p : Pool α) (c : α) (renders : Nat) : Pool α :=
  if renders < p.maxRenders then { p with idle := c :: p.idle } else p

def drop (p : Pool α) (renders : α → Nat) (g : Guard α) : Pool α :=
  match g.held with
  | some c => p.put c (renders c)
  | none => p

end Pool

end Pagewright.Page
