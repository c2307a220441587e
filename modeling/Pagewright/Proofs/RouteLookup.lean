import Pagewright.Proofs.RouteOrder

/-! Which handlers a request reaches. They are asked one after the other until one answers or fails;
in what order different mounts were added makes no difference. -/
namespace Pagewright

theorem run_bind {ε σ α β : Type} (e : ExceptT ε (StateM σ) α) (f : α → ExceptT ε (StateM σ) β)
    (s : σ) :
    (e >>= f).run s =
      match e.run s with
      | (.ok a, s') => (f a).run s'
      | (.error e, s') => (.error e, s') := by
  simp only [bind, ExceptT.bind, ExceptT.run, ExceptT.mk, StateT.bind]
  rcases e s with ⟨outcome, s'⟩
  cases outcome <;> rfl

namespace Http.Router

variable {α β ε σ : Type}

/-- A handler may answer, refuse or fail, and change a state while it does. -/
abbrev Handling (α β ε σ : Type) := α → List String → ExceptT ε (StateM σ) (Option β)

def noting (call : Handling α β ε σ) : Handling α β ε (σ × List (α × List String)) :=
  fun h rest => ExceptT.mk fun s =>
    let (outcome, s') := (call h rest).run s.1
    (outcome, s', s.2 ++ [(h, rest)])

/-- Asking some handlers in turn: the outcome, the state after it and the calls that were made. -/
inductive Asks (call : Handling α β ε σ) :
    List (α × List String) → σ → Except ε (Option β) → σ → List (α × List String) → Prop
  /-- Nobody is left to be asked. -/
  | nobody (s : σ) : Asks call [] s (.ok none) s []
  | refused {h : α} {rest : List String} {more calls : List (α × List String)} {s s₁ s₂ : σ}
      {outcome : Except ε (Option β)} :
      (call h rest).run s = (.ok none, s₁) → Asks call more s₁ outcome s₂ calls →
      Asks call ((h, rest) :: more) s outcome s₂ ((h, rest) :: calls)
  /-- An answer or a failure ends it. -/
  | settled {h : α} {rest : List String} {more : List (α × List String)} {s s₁ : σ}
      {outcome : Except ε (Option β)} :
      (call h rest).run s = (outcome, s₁) → outcome ≠ .ok none →
      Asks call ((h, rest) :: more) s outcome s₁ [(h, rest)]

def AllRefuse (call : Handling α β ε σ) : List (α × List String) → σ → Prop
  | [], _ => True
  | (h, rest) :: more, s =>
    ((call h rest).run s).1 = .ok none ∧ AllRefuse call more ((call h rest).run s).2

theorem Asks.refusal_iff {call : Handling α β ε σ} {asked calls : List (α × List String)}
    {s s' : σ} {outcome : Except ε (Option β)} (h : Asks call asked s outcome s' calls) :
    outcome = .ok none ↔ AllRefuse call asked s := by
  induction h with
  | nobody s => simp [AllRefuse]
  | refused hcall _ ih => simp [AllRefuse, hcall, ih]
  | settled hcall hne => simp [AllRefuse, hcall, hne]

theorem run_firstAnswer_cons (call : Handling α β ε σ) (h : α) (rest : List String)
    (more : List (α × List String)) (s : σ) :
    (firstAnswer call ((h, rest) :: more)).run s =
      match (call h rest).run s with
      | (.ok none, s₁) => (firstAnswer call more).run s₁
      | (outcome, s₁) => (outcome, s₁) := by
  rw [firstAnswer, run_bind]
  rcases (call h rest).run s with ⟨outcome, s₁⟩
  rcases outcome with e | answer
  · rfl
  · cases answer <;> rfl

private theorem firstAnswer_asks (call : Handling α β ε σ) (asked before : List (α × List String))
    (s : σ) :
    ∃ outcome s' calls, Asks call asked s outcome s' calls ∧
      (firstAnswer call asked).run s = (outcome, s') ∧
      (firstAnswer (noting call) asked).run (s, before) = (outcome, s', before ++ calls) := by
  induction asked generalizing s before with
  | nil => exact ⟨.ok none, s, [], .nobody s, rfl, by rw [List.append_nil]; rfl⟩
  | cons c more ih =>
      obtain ⟨h, rest⟩ := c
      rw [run_firstAnswer_cons, run_firstAnswer_cons]
      have hnoted : (noting call h rest).run (s, before) =
          (((call h rest).run s).1, ((call h rest).run s).2, before ++ [(h, rest)]) := rfl
      rw [hnoted]
      cases hcall : (call h rest).run s with
      | mk result s₁ =>
          by_cases hrefused : result = .ok none
          · subst hrefused
            obtain ⟨outcome, s', calls, hasks, hrun, hnotes⟩ := ih (before ++ [(h, rest)]) s₁
            refine ⟨outcome, s', (h, rest) :: calls, .refused hcall hasks, hrun, ?_⟩
            rw [List.append_assoc] at hnotes
            exact hnotes
          · refine ⟨result, s₁, [(h, rest)], .settled hcall hrefused, ?_⟩
            rcases result with e | answer
            · exact ⟨rfl, rfl⟩
            · cases answer with
              | none => exact absurd rfl hrefused
              | some b => exact ⟨rfl, rfl⟩

private theorem mem_askedFor {mounts : List (String × α)} {segments rest : List String} {h : α} :
    (h, rest) ∈ askedFor mounts segments ↔
      ∃ path, (path, h) ∈ mounts ∧ pathSegments path ++ rest = segments := by
  unfold askedFor
  simp only [List.mem_map, List.mem_mergeSort, List.mem_filter, decide_eq_true_eq]
  constructor
  · rintro ⟨r, ⟨⟨m, hm, rfl⟩, hbegins⟩, hpair⟩
    obtain ⟨rfl, rfl⟩ := Prod.mk.inj hpair
    obtain ⟨tail, rfl⟩ := hbegins
    exact ⟨m.1, hm, by rw [List.drop_left]; rfl⟩
  · rintro ⟨path, hm, rfl⟩
    exact ⟨routeOf (path, h), ⟨⟨(path, h), hm, rfl⟩, List.prefix_append ..⟩, by simp [routeOf]⟩

/-- A router asks the handlers whose mounts begin the segments, deeper mounts first and those of one
depth in the order they were added, until one answers or fails. -/
theorem route_asks_in_order (mounts : List (String × α)) (call : Handling α β ε σ)
    (segments : List String) (s : σ) :
    (ofMounts mounts).routes = (mounts.map routeOf).mergeSort deeperFirst ∧
    resorting (mounts.map routeOf) = (mounts.map routeOf).mergeSort deeperFirst ∧
    (∀ h rest, (h, rest) ∈ askedFor mounts segments ↔
      ∃ path, (path, h) ∈ mounts ∧ pathSegments path ++ rest = segments) ∧
    ∃ outcome s' calls,
      Asks call (askedFor mounts segments) s outcome s' calls ∧
      ((ofMounts mounts).route call segments).run s = (outcome, s') ∧
      ((ofMounts mounts).route (noting call) segments).run (s, []) = (outcome, s', calls) ∧
      (outcome = .ok none ↔ AllRefuse call (askedFor mounts segments) s) := by
  refine ⟨routes_ofMounts mounts, resorting_eq_mergeSort _, fun _ _ => mem_askedFor, ?_⟩
  obtain ⟨outcome, s', calls, hasks, hrun, hnotes⟩ :=
    firstAnswer_asks call (askedFor mounts segments) [] s
  unfold route
  rw [candidates_ofMounts]
  exact ⟨outcome, s', calls, hasks, hrun, hnotes, hasks.refusal_iff⟩

def handlersAt (mount : List String) (mounts : List (String × α)) : List α :=
  (mounts.filter fun m => pathSegments m.1 = mount).map (·.2)

/-- Only one mount of each depth begins a request's segments. -/
theorem atDepth_prefixes (mounts : List (String × α)) (segments : List String) (d : Nat) :
    atDepth d ((mounts.map routeOf).filter fun r => r.mount <+: segments) =
      if d ≤ segments.length then
        (handlersAt (segments.take d) mounts).map fun h => ⟨segments.take d, h⟩
      else [] := by
  have hmount (mount : List String) : (mount.length = d ∧ mount <+: segments) ↔
      (d ≤ segments.length ∧ mount = segments.take d) := by
    constructor
    · rintro ⟨rfl, hbegins⟩
      exact ⟨hbegins.length_le, List.prefix_iff_eq_take.mp hbegins⟩
    · rintro ⟨hd, rfl⟩
      exact ⟨by simp [hd], List.take_prefix d segments⟩
  have hkept : (fun r : Route α => decide (r.mount.length = d) && decide (r.mount <+: segments)) =
      fun r => decide (d ≤ segments.length) && decide (r.mount = segments.take d) := by
    funext r
    rw [← Bool.decide_and, ← Bool.decide_and]
    exact decide_eq_decide.mpr (hmount r.mount)
  unfold atDepth
  rw [List.filter_filter, hkept]
  by_cases hd : d ≤ segments.length
  · simp only [hd, decide_true, Bool.true_and, if_true]
    induction mounts with
    | nil => rfl
    | cons m mounts ih =>
        by_cases htake : pathSegments m.1 = segments.take d
        · simpa [handlersAt, routeOf, htake] using ih
        · simpa [handlersAt, routeOf, htake] using ih
  · simp [hd]

private theorem askedFor_congr {left right : List (String × α)}
    (h : ∀ mount, handlersAt mount left = handlersAt mount right) (segments : List String) :
    askedFor left segments = askedFor right segments := by
  unfold askedFor
  congr 1
  apply eq_of_atDepth_eq (pairwise_mergeSort _) (pairwise_mergeSort _)
  intro d
  rw [atDepth_mergeSort, atDepth_mergeSort, atDepth_prefixes, atDepth_prefixes, h]

/-- It makes no difference in which order different mount points are given their handlers, though the
routes of one depth then stand in another order. Two ways to add the same handlers that agree on the
order at each mount point call the same handlers, with the same rests, in the same order. -/
theorem route_mount_order_irrelevant {left right : List (String × α)}
    (h : ∀ mount, handlersAt mount left = handlersAt mount right)
    (call : Handling α β ε σ) (segments : List String) (s : σ) :
    ((ofMounts left).route call segments).run s = ((ofMounts right).route call segments).run s ∧
    ((ofMounts left).route (noting call) segments).run (s, []) =
      ((ofMounts right).route (noting call) segments).run (s, []) := by
  have hasked : (ofMounts left).candidates segments = (ofMounts right).candidates segments := by
    rw [candidates_ofMounts, candidates_ofMounts, askedFor_congr h]
  unfold route
  rw [hasked]
  exact ⟨rfl, rfl⟩

/-- The mount `/b` comes first or second; of the two handlers at `/a` the first one refuses. -/
theorem route_mount_order_irrelevant_two_mounts :
    let left := [("/a", 1), ("/b", 2), ("/a/", 3)]
    let right := [("b", 2), ("//a", 1), ("/a", 3)]
    let call : Handling Nat Nat String Unit := fun h rest =>
      if rest = [] then throw "failed" else if h = 1 then pure none else pure (some h)
    (∀ mount, handlersAt mount left = handlersAt mount right) ∧
      (ofMounts left).routes ≠ (ofMounts right).routes ∧
      ((ofMounts right).route call ["a", "x"]).run () = (.ok (some 3), ()) ∧
      ((ofMounts left).route (noting call) ["a", "x"]).run ((), []) =
        ((ofMounts right).route (noting call) ["a", "x"]).run ((), []) := by
  intro left right call
  have hsame (mount : List String) : handlersAt mount left = handlersAt mount right := by
    have ha : pathSegments "/a" = ["a"] := by decide +kernel
    have ha' : pathSegments "//a" = ["a"] := by decide +kernel
    have ha'' : pathSegments "/a/" = ["a"] := by decide +kernel
    have hb : pathSegments "/b" = ["b"] := by decide +kernel
    have hb' : pathSegments "b" = ["b"] := by decide +kernel
    simp only [handlersAt, left, right, List.filter_cons, List.filter_nil, ha, ha', ha'', hb, hb']
    by_cases hmount : mount = ["b"]
    · simp [hmount]
    · simp only [decide_eq_true_eq, Ne.symm hmount, if_false]
      split <;> rfl
  refine ⟨hsame, by decide +kernel, rfl, ?_⟩
  exact (route_mount_order_irrelevant hsame call ["a", "x"] ()).2

end Http.Router

end Pagewright
