import Pagewright.Proofs.MirroredSteps
import Pagewright.Proofs.MirroredTags
import Pagewright.Proofs.Runs

/-!
Runs on a store and on its mirror: until one shows the order of the globals, the other does the same.
-/
namespace Pagewright.Script

variable {π : Nat ↪ Nat} {s s' : Store}

/-- Whether a call shows in which order the keys of the globals stand: it goes from one to the next. -/
def Store.showsOrder (s : Store) (f : Value) (args : List Value) : Bool :=
  f = .builtin (.basic .next) && args.head? = some (.table s.globals)

def Config.showsOrder (c : Config) : Bool :=
  match c.control with
  | .apply f args _ => c.store.showsOrder f args
  | _ => false

/-! ### Calls -/

theorem Machine.step_library {c : Config} {f : Value} {args : List Value} {site : Option Site}
    {stack : List Frame} (h : Machine.step c = .library f args site stack s) :
    c = ⟨.apply f args site, stack, s⟩ := by
  obtain ⟨control, stack', s'⟩ := c
  cases control with
  | eval e env => cases h
  | exec rest block env => cases h
  | deliver vs => cases stack' <;> cases h
  | exit e =>
    cases stack' with
    | nil => cases e <;> cases h
    | cons f stack => cases h
  | apply f' args' site' =>
    change Machine.apply f' args' site' stack' s' = _ at h
    unfold Machine.apply at h
    dsimp only at h
    split at h
    case h_1 => split at h <;> cases h
    case h_7 =>
      split at h
      · cases h
      · cases h
        rfl
    case h_8 =>
      cases h
      rfl
    case h_9 =>
      cases h
      rfl
    case h_10 => split at h <;> cases h
    all_goals
      repeat' split at h
      all_goals cases h

private theorem external_mirrored {call call' : Callback}
    (hcall : Library.CallsMirrored π call call')
    (hs : s.Mirrors π s') {f : Value} {args : List Value} (h : s.showsOrder f args = false) :
    MirrorEnds π (List.map (·.moved π)) (external call f args s)
      (external call' (f.moved π) (args.map (·.moved π)) s') := by
  have hfault (fault : Fault) : MirrorEnds π (List.map (·.moved π))
      (Eval.fault (α := List Value) fault s) (Eval.fault fault s') := .fault fault hs
  cases f with
  | builtin b =>
    by_cases hnext : b = .basic .next
    · subst hnext
      refine Library.next_mirrored call call' hs fun hlisted => ?_
      rw [Store.showsOrder, hlisted] at h
      simp at h
    · exact Library.call_mirrored hcall hnext args s s' hs
  | generator r =>
    have hstep : Mirrored π (List.map (·.moved π)) (external call (.generator r) args)
        (external call' (.generator r) (args.map (·.moved π))) := by
      refine .get_bind fun s s' hs => ?_
      dsimp only
      rw [hs.heap.generators]
      cases s.heap.generators.getD r default with
      | «matches» subject pattern position last => exact Library.matchesStep_mirrored r _ _ _ _
      | wrap t => exact .fault _
    exact hstep s s' hs
  | hosted r =>
    have htag : Mirrored π (List.map (·.moved π)) (external call (.hosted r) args)
        (external call' (.hosted (π r)) (args.map (·.moved π))) := by
      refine .get_bind fun s s' hs => ?_
      dsimp only
      rw [hs.tags]
      cases s.tags[r]? with
      | none => exact .fault _
      | some tag =>
        exact (Markup.Binding.call_mirrored hcall tag.1 tag.2 args).bind fun v => .pure rfl
    exact htag s s' hs
  | _ => exact hfault _

private theorem nested_mirrored (hs : s.Mirrors π s') (f : Value) (args : List Value) :
    (nested f args s).Mirrors π (nested (f.moved π) (args.map (·.moved π)) s') := by
  unfold nested
  dsimp only
  rw [hs.depth]
  split
  · exact ⟨rfl, rfl, hs.withDepth _⟩
  · exact ⟨rfl, rfl, hs.withDepth _⟩

/-! ### Runs -/

def RunsMirrored (π : Nat ↪ Nat) (run run' : Config → EStateM.Result Stop Store (List Value)) : Prop :=
  ∀ c c', c.Mirrors π c' → MirrorEnds π (List.map (·.moved π)) (run c) (run' c')

section Parts

variable {run run' : Config → EStateM.Result Stop Store (List Value)} (hrun : RunsMirrored π run run')
include hrun

theorem callBy_mirrored : Library.CallsMirrored π (callBy run) (callBy run') := by
  intro f args s s' hs
  have hends := hrun _ _ (nested_mirrored hs f args)
  unfold callBy
  dsimp only
  rw [hs.depth]
  generalize run (nested f args s) = r at hends
  generalize run' (nested (f.moved π) (args.map (·.moved π)) s') = r' at hends
  cases hends with
  | ok vs ht => exact .ok vs (ht.withDepth _)
  | raised v ht => exact .raised v (ht.withDepth _)
  | fault fault ht => exact .fault fault (ht.withDepth _)
  | exhausted => exact .exhausted _ _

private theorem goOn_mirrored (site : Option Site) (stack : List Frame)
    {r r' : EStateM.Result Stop Store (List Value)}
    (hr : MirrorEnds π (List.map (·.moved π)) r r') :
    MirrorEnds π (List.map (·.moved π)) (goOn run site stack r)
      (goOn run' site (stack.map (·.moved π)) r') := by
  cases hr with
  | ok vs hs => exact hrun _ _ ⟨rfl, rfl, hs⟩
  | raised v hs => exact hrun _ _ ⟨rfl, rfl, hs⟩
  | fault fault hs => exact hrun _ _ ⟨rfl, rfl, hs⟩
  | exhausted => exact .exhausted _ _

private theorem proceed_mirrored {c c' : Config} (h : c.Mirrors π c')
    (hshows : c.showsOrder = false) :
    MirrorEnds π (List.map (·.moved π)) (proceed run (Machine.step c))
      (proceed run' (Machine.step c')) := by
  have hnext := h.step
  cases hstep : Machine.step c with
  | more c =>
    rw [hstep] at hnext
    generalize Machine.step c' = next at hnext
    cases hnext with
    | more hc => exact hrun _ _ hc
  | finished vs s =>
    rw [hstep] at hnext
    generalize Machine.step c' = next at hnext
    cases hnext with
    | finished vs hs => exact .ok vs hs
  | failed v s =>
    rw [hstep] at hnext
    generalize Machine.step c' = next at hnext
    cases hnext with
    | failed v hs => exact .raised v hs
  | library f args site stack s =>
    have hc := Machine.step_library hstep
    subst hc
    rw [hstep] at hnext
    generalize Machine.step c' = next at hnext
    cases hnext with
    | library f args site stack hs =>
      exact goOn_mirrored hrun site stack (external_mirrored (callBy_mirrored hrun) hs hshows)

end Parts

/-- A run that stops where the order of the globals shows, and the run on the mirror. By induction on the
fuel, which is that of the library's calls too. -/
theorem run_mirrored (fuel : Nat) :
    RunsMirrored π (runWhile (fun c => !c.showsOrder) fuel) (run fuel) := by
  induction fuel with
  | zero => exact fun c c' _ => .exhausted _ _
  | succ fuel ih =>
    intro c c' h
    unfold runWhile run
    cases hshows : c.showsOrder with
    | true => exact .exhausted _ _
    | false => exact proceed_mirrored ih h hshows

theorem callValue_mirrored :
    Library.CallsMirrored π (callWhile fun c => !c.showsOrder) callValue :=
  callBy_mirrored (run_mirrored plenty)

end Pagewright.Script
