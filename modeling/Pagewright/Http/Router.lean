import Pagewright.Http.Request

/-!
Handlers mounted at paths. A request goes to the handlers whose mount point is the beginning of its
path, the deeper ones first and those of one depth in the order they were added, until one does not
refuse it.
-/
namespace Pagewright.Http

structure Route (α : Type) where
  /-- The segments of the mount point. -/
  mount : List String
  handler : α
deriving DecidableEq, Repr

/-- The routes in the order they are tried: their depths descend. -/
structure Router (α : Type) where
  routes : List (Route α)
deriving Repr

namespace Router

variable {α : Type}

def empty : Router α := ⟨[]⟩

def insert (r : Route α) : List (Route α) → List (Route α)
  | [] => [r]
  | r' :: rest => if r'.mount.length < r.mount.length then r :: r' :: rest else r' :: insert r rest

private theorem perm_insert (r : Route α) (rs : List (Route α)) : (insert r rs).Perm (r :: rs) := by
  induction rs with
  | nil => exact .refl _
  | cons r' rest ih =>
    unfold insert
    split
    · exact .refl _
    · exact (ih.cons r').trans (.swap r r' rest)

theorem pairwise_insert (r : Route α) {rs : List (Route α)}
    (h : rs.Pairwise fun a b => b.mount.length ≤ a.mount.length) :
    (insert r rs).Pairwise fun a b => b.mount.length ≤ a.mount.length := by
  induction rs with
  | nil => simp [insert]
  | cons r' rest ih =>
    obtain ⟨hr, hrest⟩ := List.pairwise_cons.mp h
    unfold insert
    split
    · refine List.pairwise_cons.mpr ⟨fun b hb => ?_, h⟩
      cases hb with
      | head => omega
      | tail _ hb => have := hr b hb; omega
    · refine List.pairwise_cons.mpr ⟨fun b hb => ?_, ih hrest⟩
      cases (perm_insert r rest).mem_iff.mp hb with
      | head => omega
      | tail _ hb => exact hr b hb

def add (router : Router α) (path : String) (handler : α) : Router α :=
  ⟨insert ⟨pathSegments path, handler⟩ router.routes⟩

/-- What is left of some segments after those of a mount point, if they begin with it. -/
def restBelow? : List String → List String → Option (List String)
  | [], rest => some rest
  | _ :: _, [] => none
  | m :: mount, s :: segments => if m = s then restBelow? mount segments else none

@[simp] theorem restBelow?_eq_some_iff {mount segments rest : List String} :
    restBelow? mount segments = some rest ↔ segments = mount ++ rest := by
  induction mount generalizing segments with
  | nil => simp [restBelow?]
  | cons m mount ih =>
    cases segments with
    | nil => simp [restBelow?]
    | cons s segments =>
      unfold restBelow?
      split
      · next h => simp [ih, h]
      · next h => simp [Ne.symm h]

def candidates (router : Router α) (segments : List String) : List (α × List String) :=
  router.routes.filterMap fun r => (restBelow? r.mount segments).map (r.handler, ·)

/-- The first answer of some handlers; `none` is a refusal. -/
def firstAnswer {m : Type → Type} [Monad m] {β : Type} (call : α → List String → m (Option β)) :
    List (α × List String) → m (Option β)
  | [] => return none
  | (h, rest) :: more => do
    match ← call h rest with
    | some answer => return some answer
    | none => firstAnswer call more

def route {m : Type → Type} [Monad m] {β : Type} (router : Router α)
    (call : α → List String → m (Option β)) (segments : List String) : m (Option β) :=
  firstAnswer call (router.candidates segments)

end Router

end Pagewright.Http
