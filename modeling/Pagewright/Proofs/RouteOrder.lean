import Mathlib.Data.List.Induction
import Pagewright.Http.Router

/-! The order in which handlers are asked. A router keeps its routes as one stable sort by descending
depth would leave them; of that order a request sees only the mounts that begin its path. -/
namespace Pagewright.Http.Router

variable {α : Type}

def ofMounts (mounts : List (String × α)) : Router α :=
  mounts.foldl (fun router m => router.add m.1 m.2) empty

def routeOf (m : String × α) : Route α := ⟨pathSegments m.1, m.2⟩

def deeperFirst (a b : Route α) : Bool := b.mount.length ≤ a.mount.length

/-- Sorting all over again for each route that is put at the end. -/
def resorting (routes : List (Route α)) : List (Route α) :=
  routes.foldl (fun sorted r => (sorted ++ [r]).mergeSort deeperFirst) []

def atDepth (d : Nat) (routes : List (Route α)) : List (Route α) :=
  routes.filter fun r => r.mount.length = d

/-- Descending depths and the order within each depth leave no choice. -/
theorem eq_of_atDepth_eq {left right : List (Route α)}
    (hleft : left.Pairwise fun a b => deeperFirst a b)
    (hright : right.Pairwise fun a b => deeperFirst a b)
    (h : ∀ d, atDepth d left = atDepth d right) : left = right := by
  induction left generalizing right with
  | nil =>
      cases right with
      | nil => rfl
      | cons b right =>
          have hb := h b.mount.length
          simp [atDepth] at hb
  | cons a left ih =>
      cases right with
      | nil =>
          have ha := h a.mount.length
          simp [atDepth] at ha
      | cons b right =>
          obtain ⟨ha, hleft'⟩ := List.pairwise_cons.mp hleft
          obtain ⟨hb, hright'⟩ := List.pairwise_cons.mp hright
          have hmemA : a ∈ b :: right := by
            have hmem : a ∈ atDepth a.mount.length (a :: left) := by simp [atDepth]
            rw [h] at hmem
            exact (List.mem_filter.mp hmem).1
          have hmemB : b ∈ a :: left := by
            have hmem : b ∈ atDepth b.mount.length (b :: right) := by simp [atDepth]
            rw [← h] at hmem
            exact (List.mem_filter.mp hmem).1
          have hdepth : a.mount.length = b.mount.length := by
            rcases List.mem_cons.mp hmemA with rfl | hmemA
            · rfl
            rcases List.mem_cons.mp hmemB with rfl | hmemB
            · rfl
            have hab := ha b hmemB
            have hba := hb a hmemA
            simp only [deeperFirst, decide_eq_true_eq] at hab hba
            omega
          have hhead := h b.mount.length
          simp only [atDepth, hdepth, decide_true, List.filter_cons_of_pos,
            List.cons.injEq] at hhead
          obtain ⟨rfl, htail⟩ := hhead
          congr 1
          apply ih hleft' hright'
          intro d
          by_cases hd : a.mount.length = d
          · subst hd
            exact htail
          · have hrest := h d
            simpa [atDepth, List.filter_cons, hd] using hrest

@[simp] theorem atDepth_append (d : Nat) (left right : List (Route α)) :
    atDepth d (left ++ right) = atDepth d left ++ atDepth d right :=
  List.filter_append ..

@[simp] theorem pairwise_mergeSort (routes : List (Route α)) :
    (routes.mergeSort deeperFirst).Pairwise fun a b => deeperFirst a b := by
  apply List.pairwise_mergeSort
  · intro a b c hab hbc
    simp only [deeperFirst, decide_eq_true_eq] at hab hbc ⊢
    omega
  · intro a b
    simp only [deeperFirst, Bool.or_eq_true, decide_eq_true_eq]
    omega

@[simp] theorem atDepth_mergeSort (d : Nat) (routes : List (Route α)) :
    atDepth d (routes.mergeSort deeperFirst) = atDepth d routes := by
  have hsame : (atDepth d routes).Pairwise fun a b => deeperFirst a b := by
    apply List.Pairwise.imp_of_mem (R := fun _ _ => True) ?_ (List.pairwise_of_forall (by simp))
    intro a b ha hb _
    have ha := of_decide_eq_true (List.mem_filter.mp ha).2
    have hb := of_decide_eq_true (List.mem_filter.mp hb).2
    simp only [deeperFirst, decide_eq_true_eq]
    omega
  have hsub : (atDepth d routes).Sublist (routes.mergeSort deeperFirst) := by
    refine List.sublist_mergeSort ?_ ?_ hsame List.filter_sublist
    · intro a b c hab hbc
      simp only [deeperFirst, decide_eq_true_eq] at hab hbc ⊢
      omega
    · intro a b
      simp only [deeperFirst, Bool.or_eq_true, decide_eq_true_eq]
      omega
  have hkept := hsub.filter fun r => decide (r.mount.length = d)
  rw [show (atDepth d routes).filter (fun r => decide (r.mount.length = d)) = atDepth d routes by
    simp [atDepth]] at hkept
  have hlength := ((List.mergeSort_perm routes deeperFirst).filter
    fun r => decide (r.mount.length = d)).length_eq
  exact (hkept.eq_of_length hlength.symm).symm

private theorem atDepth_insert (d : Nat) (r : Route α) {routes : List (Route α)}
    (h : routes.Pairwise fun a b => b.mount.length ≤ a.mount.length) :
    atDepth d (insert r routes) = atDepth d (routes ++ [r]) := by
  induction routes with
  | nil => simp [insert]
  | cons r' rest ih =>
      obtain ⟨hr', hrest⟩ := List.pairwise_cons.mp h
      unfold insert
      split
      · rename_i hlt
        rw [atDepth_append]
        by_cases hd : r.mount.length = d
        · have hnone : atDepth d (r' :: rest) = [] := by
            apply List.filter_eq_nil_iff.mpr
            intro b hb
            have hle : b.mount.length ≤ r'.mount.length := by
              rcases List.mem_cons.mp hb with rfl | hb
              · exact Nat.le_refl _
              · exact hr' b hb
            simp only [decide_eq_true_eq]
            omega
          rw [hnone]
          simpa [atDepth, List.filter_cons, hd] using hnone
        · simp [atDepth, List.filter_cons, hd]
      · simp only [atDepth, List.filter_cons, List.cons_append] at ih ⊢
        rw [ih hrest]

private theorem mergeSort_append_singleton (routes : List (Route α)) (r : Route α) :
    (routes ++ [r]).mergeSort deeperFirst = insert r (routes.mergeSort deeperFirst) := by
  have hsorted : (routes.mergeSort deeperFirst).Pairwise
      fun a b => b.mount.length ≤ a.mount.length := by
    simpa [deeperFirst] using pairwise_mergeSort routes
  apply eq_of_atDepth_eq (pairwise_mergeSort _)
  · simpa [deeperFirst] using pairwise_insert r hsorted
  · intro d
    rw [atDepth_mergeSort, atDepth_insert d r hsorted, atDepth_append, atDepth_append,
      atDepth_mergeSort]

@[simp] theorem routes_ofMounts (mounts : List (String × α)) :
    (ofMounts mounts).routes = (mounts.map routeOf).mergeSort deeperFirst := by
  induction mounts using List.reverseRecOn with
  | nil => simp [ofMounts, empty]
  | append_singleton mounts m ih =>
      rw [List.map_append, List.map_singleton, mergeSort_append_singleton, ← ih]
      simp [ofMounts, add, routeOf]

@[simp] theorem resorting_eq_mergeSort (routes : List (Route α)) :
    resorting routes = routes.mergeSort deeperFirst := by
  induction routes using List.reverseRecOn with
  | nil => simp [resorting]
  | append_singleton routes r ih =>
      have hstep : resorting (routes ++ [r]) =
          (resorting routes ++ [r]).mergeSort deeperFirst := by
        simp [resorting]
      rw [hstep, ih]
      apply eq_of_atDepth_eq (pairwise_mergeSort _) (pairwise_mergeSort _)
      intro d
      simp only [atDepth_mergeSort, atDepth_append]

@[simp] private theorem filter_mergeSort (p : Route α → Bool) (routes : List (Route α)) :
    (routes.mergeSort deeperFirst).filter p = (routes.filter p).mergeSort deeperFirst := by
  apply eq_of_atDepth_eq ((pairwise_mergeSort routes).filter p) (pairwise_mergeSort _)
  intro d
  have hswap (l : List (Route α)) : atDepth d (l.filter p) = (atDepth d l).filter p := by
    simp only [atDepth, List.filter_filter, Bool.and_comm]
  rw [atDepth_mergeSort, hswap, hswap, atDepth_mergeSort]

/-! What a request sees of the order. -/

private theorem restBelow?_eq (mount segments : List String) :
    restBelow? mount segments =
      if mount <+: segments then some (segments.drop mount.length) else none := by
  split
  · rename_i hbegins
    obtain ⟨rest, rfl⟩ := hbegins
    rw [restBelow?_eq_some_iff, List.drop_left]
  · rename_i hbegins
    cases hrest : restBelow? mount segments with
    | none => rfl
    | some rest =>
        rw [restBelow?_eq_some_iff] at hrest
        exact absurd ⟨rest, hrest.symm⟩ hbegins

/-- The handlers mounted at the beginning of some segments: deeper mounts first, then as they were
added. Each comes with what is left of the segments. -/
def askedFor (mounts : List (String × α)) (segments : List String) : List (α × List String) :=
  (((mounts.map routeOf).filter fun r => r.mount <+: segments).mergeSort deeperFirst).map
    fun r => (r.handler, segments.drop r.mount.length)

@[simp] theorem candidates_ofMounts (mounts : List (String × α)) (segments : List String) :
    (ofMounts mounts).candidates segments = askedFor mounts segments := by
  unfold askedFor
  rw [← filter_mergeSort, ← routes_ofMounts]
  unfold candidates
  induction (ofMounts mounts).routes with
  | nil => rfl
  | cons r rest ih =>
      rw [List.filterMap_cons, restBelow?_eq, List.filter_cons]
      by_cases hbegins : r.mount <+: segments
      · simp [hbegins, ih]
      · simp [hbegins, ih]

end Pagewright.Http.Router
