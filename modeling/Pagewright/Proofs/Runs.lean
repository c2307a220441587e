import Pagewright.Proofs.ComponentCalls
import Pagewright.Proofs.MachineSteps
import Pagewright.Script.Run

/-! Scripts that leave environments and the globals what they are: a run that is watched for this ends as
the run does, and in a confined store. -/
namespace Pagewright.Script

open Library (reachesEnvironments CallsAgree)

def Config.changed (c : Config) : List Value :=
  c.assignsTo ++ match c.control with
    | .apply (.builtin f) args _ => [Library.changed f args]
    | _ => []

/-- Whether the next step leaves environments and the globals what they are. It applies nothing that
reaches for environments, and either asks none for a name it has lost, which is to keep the globals
hidden, or does not change them. -/
def Config.orderly (hidden : Bool) (c : Config) : Bool :=
  (if hidden then !c.asksLostName else .table 0 ∉ c.changed) && match c.control with
    | .apply f _ _ => !reachesEnvironments f
    | _ => true

/-- Runs a machine as long as its configurations pass a watch, those of the library's calls too. -/
def runWhile (watch : Config → Bool) : Nat → Config → EStateM.Result Stop Store (List Value)
  | 0, c => .error .exhausted c.store
  | fuel + 1, c =>
    if watch c then proceed (runWhile watch fuel) (Machine.step c) else .error .exhausted c.store

def callWhile (watch : Config → Bool) : Callback := callBy (runWhile watch plenty)

variable {g : Globals} {w : Set Nat}

/-! Calls. -/

private theorem nested_confined {f : Value} {args : List Value} (hf : f.Within w)
    (hargs : AllWithin w args)
    {s : Store} (hs : Confined g w s) : (nested f args s).Confined g w := by
  unfold nested
  dsimp only
  split
  · exact ⟨trivial, stackWithin_nil, hs.depth _⟩
  · exact ⟨⟨hf, hargs⟩, stackWithin_nil, hs.depth _⟩

theorem callBy_agrees {run run' : Config → EStateM.Result Stop Store (List Value)}
    (h : ∀ w c, c.Confined g w → Alike g w (run c) (run' c) AllWithin) :
    CallsAgree g (callBy run) (callBy run') := by
  intro w f args hf hargs s hs
  unfold callBy
  dsimp only
  rcases h w _ (nested_confined hf hargs hs) with ⟨s', hstop⟩ | ⟨heq, w', hw, hends⟩
  · exact Or.inl ⟨_, by rw [hstop]⟩
  · refine Or.inr ⟨by rw [heq], w', hw, ?_⟩
    cases hr : run' (nested f args s) with
    | ok vs s' =>
        rw [hr] at hends
        exact ⟨hends.1.depth _, hends.2⟩
    | error e s' =>
        rw [hr] at hends
        cases e with
        | raised v => exact ⟨hends.1.depth _, hends.2⟩
        | fault f => exact Confined.depth hends _
        | exhausted => trivial

private theorem external_agrees {call call' : Callback} (hcall : CallsAgree g call call')
    {f : Value} (hf : reachesEnvironments f = false) {args : List Value} (hargs : AllWithin w args)
    (hchanged : ∀ b, f = .builtin b → (Library.changed b args).Changeable w) :
    Agrees g w (external call f args) (external call' f args) AllWithin := by
  refine Same.get.bindAgrees fun s _ => ?_
  cases f with
  | builtin b => exact Library.call_agrees hcall hf hargs (hchanged b rfl)
  | generator r =>
      dsimp only
      split
      · refine Same.agrees ?_
        exact Library.matchesStep_keeps _ _ _ _ _
      · exact .fault _
  | hosted r =>
      dsimp only
      split
      · refine (Markup.Binding.call_agrees hcall _ _ hargs).bind fun w' _ v hv => ?_
        exact .pure (.one hv)
      · exact .fault _
  | _ => exact .fault _

/-! Runs. -/

variable {c : Config}

theorem Frame.assignsTo_within {f : Frame} (h : f.Within w) : AllWithin w f.assignsTo := by
  have hobject {p : Place} (hp : p.Within w) : p.object.Within w := by
    cases p with
    | cell r => trivial
    | field o k line => exact hp.1
  cases f with
  | assigned places chunk =>
      intro v hv
      obtain ⟨p, hp, rfl⟩ := List.mem_map.mp hv
      exact hobject (h p hp)
  | assigning rest chunk =>
      intro v hv
      obtain ⟨p, hp, rfl⟩ := List.mem_map.mp hv
      exact hobject (h p hp).1
  | _ => exact allWithin_nil

theorem Config.Confined.changed_within (h : c.Confined g w) : AllWithin w c.changed := by
  obtain ⟨control, stack, s⟩ := c
  obtain ⟨hcontrol, hstack, -⟩ := h
  refine allWithin_append.mpr ⟨?_, ?_⟩
  · unfold Config.assignsTo
    dsimp only
    split
    · exact Frame.assignsTo_within (hstack _ List.mem_cons_self)
    · exact allWithin_nil
  · split
    · rename_i hcall
      dsimp only at hcall
      subst hcall
      exact .one (Library.changed_within hcontrol.2 _)
    · exact allWithin_nil

theorem Config.Confined.changeable (h : c.Confined g w) (horderly : c.orderly g.hidden) :
    ∀ v ∈ c.changed, v.Changeable w := by
  intro v hv
  refine (h.changed_within v hv).changeable fun heq => ?_
  unfold Config.orderly at horderly
  rw [Bool.and_eq_true] at horderly
  rw [h.store.globals_hidden, Bool.not_eq_false]
  by_contra hshown
  rw [if_neg hshown, decide_eq_true_eq] at horderly
  exact horderly.1 (heq ▸ hv)

theorem Config.Confined.visible_of_asksLostName (h : c.Confined g w) (horderly : c.orderly g.hidden)
    (hlost : c.asksLostName) : 0 ∈ w := by
  unfold Config.orderly at horderly
  rw [Bool.and_eq_true] at horderly
  rw [h.store.globals_hidden, ← Bool.not_eq_true]
  intro hhidden
  rw [if_pos hhidden, hlost] at horderly
  exact Bool.noConfusion horderly.1

theorem Config.reachesEnvironments_of_orderly {hidden : Bool} (h : c.orderly hidden) {f : Value}
    {args : List Value} {site : Option Site} (hcontrol : c.control = .apply f args site) :
    reachesEnvironments f = false := by
  unfold Config.orderly at h
  rw [hcontrol, Bool.and_eq_true] at h
  exact Bool.not_eq_true' _ ▸ h.2

private theorem goOn_agrees {run run' : Config → EStateM.Result Stop Store (List Value)}
    (h : ∀ w c, c.Confined g w → Alike g w (run c) (run' c) AllWithin)
    (site : Option Site) {stack : List Frame} (hstack : StackWithin w stack)
    {r r' : EStateM.Result Stop Store (List Value)}
    (hr : Alike g w r r' AllWithin) :
    Alike g w (goOn run site stack r) (goOn run' site stack r') AllWithin := by
  rcases hr with ⟨s, rfl⟩ | ⟨rfl, w', hw, hends⟩
  · exact Or.inl ⟨s, rfl⟩
  · have hgo (control : Control) (hcontrol : control.Within w') {s : Store}
        (hs : Confined g w' s) : Alike g w (run ⟨control, stack, s⟩) (run' ⟨control, stack, s⟩)
          fun w'' vs => AllWithin w'' vs :=
      (h w' _ ⟨hcontrol, hstack.mono hw, hs⟩).of_subset hw
    cases r with
    | ok vs s => exact hgo (.deliver vs) hends.2 hends.1
    | error e s =>
        cases e with
        | raised v => exact hgo (.exit (.raise v)) hends.2 hends.1
        | fault f => exact hgo (.exit (.raise (f.value site))) trivial hends
        | exhausted => exact Or.inl ⟨s, rfl⟩

theorem proceed_agrees {run run' : Config → EStateM.Result Stop Store (List Value)}
    (h : ∀ w c, c.Confined g w → Alike g w (run c) (run' c) AllWithin)
    (hc : c.Confined g w) (horderly : c.orderly g.hidden) :
    Alike g w (proceed run (Machine.step c)) (proceed run' (Machine.step c)) AllWithin := by
  have hchangeable := hc.changeable horderly
  obtain ⟨w', hw, hnext⟩ := Machine.step_confined hc (hc.visible_of_asksLostName horderly)
    fun v hv => hchangeable v (List.mem_append_left _ hv)
  refine Alike.of_subset ?_ hw
  cases hstep : Machine.step c with
  | more c' =>
      rw [hstep] at hnext
      exact h w' c' hnext
  | finished vs store =>
      rw [hstep] at hnext
      obtain ⟨hvs, rfl, hs⟩ := hnext
      exact Or.inr ⟨rfl, w', subset_rfl, hs, hvs⟩
  | failed v store =>
      rw [hstep] at hnext
      obtain ⟨hv, rfl, hs⟩ := hnext
      exact Or.inr ⟨rfl, w', subset_rfl, hs, hv⟩
  | library f args site stack store =>
      rw [hstep] at hnext
      obtain ⟨hcontrol, rfl, hc, hstack⟩ := hnext
      have hargs : f.Within w' ∧ AllWithin w' args := by
        have hwithin := hc.control
        rwa [hcontrol] at hwithin
      have hchanged (b : Builtin) (hb : f = .builtin b) :
          (Library.changed b args).Changeable w' := by
        refine (hchangeable _ (List.mem_append_right _ ?_)).mono hw
        rw [hcontrol, hb]
        exact List.mem_singleton_self _
      refine goOn_agrees h site hstack ?_
      exact external_agrees (callBy_agrees h) (c.reachesEnvironments_of_orderly horderly hcontrol)
        hargs.2 hchanged c.store hc.store

/-- A run of visible values, and the run that is watched. By induction on the fuel, which is that of
the library's calls too. -/
theorem run_agrees (fuel : Nat) (c : Config) (h : c.Confined g w) :
    Alike g w (run fuel c) (runWhile (Config.orderly g.hidden) fuel c) AllWithin := by
  induction fuel generalizing c w with
  | zero => exact Or.inl ⟨_, rfl⟩
  | succ fuel ih =>
      unfold run runWhile
      by_cases horderly : c.orderly g.hidden
      · rw [if_pos horderly]
        exact proceed_agrees (fun w c hc => ih c hc) h horderly
      · exact Or.inl ⟨_, if_neg horderly⟩

theorem callValue_agrees : CallsAgree g callValue (callWhile (Config.orderly g.hidden)) :=
  callBy_agrees fun _ c hc => run_agrees plenty c hc

end Pagewright.Script
