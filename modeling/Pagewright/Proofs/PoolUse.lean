import Mathlib.Data.List.Nodup
import Mathlib.Logic.Relation
import Pagewright.Page.Handler
import Pagewright.Proofs.RenderIsolation

/-! A pool in use: guards are asked for, contexts looked at, scripts rendered in them and guards given
back, in any order and by any number of users. Every context is in one place at a time, what waits is not
used up, and there are never more contexts about than there were users at one time. -/
namespace Pagewright.Page

/-- What a counter of 32 bits shows of a number. Nothing is said of numbers that do not fit. -/
structure Counter where
  shown : Nat → Nat
  shown_of_lt : ∀ n < 2 ^ 32, shown n = n

def Counter.count (counter : Counter) (c : Context) : Context :=
  { c with renders := counter.shown c.renders }

@[simp] theorem Job.render_renders (j : Job) (c : Context) :
    (j.render c).context.renders = c.renders + 1 := by
  rw [Job.render_eq, Context.renderWith_context]

@[simp] theorem Counter.count_of_lt (counter : Counter) {c : Context} (h : c.renders < 2 ^ 32) :
    counter.count c = c := by
  unfold Counter.count
  rw [counter.shown_of_lt _ h]

/-- A context that is told from all others by a number, in the order in which they are made. -/
structure Numbered where
  number : Nat
  context : Context

structure LiveGuard where
  guard : Guard Numbered
  done : Nat

def LiveGuard.number? (g : LiveGuard) : Option Nat := g.guard.held.map (·.number)

@[simp] theorem LiveGuard.number?_none (n : Nat) : (LiveGuard.mk ⟨none⟩ n).number? = none := rfl

@[simp] theorem LiveGuard.number?_holding (c : Numbered) (n : Nat) :
    (LiveGuard.mk (.holding c) n).number? = some c.number := rfl

/-- The context of a guard was new, or not used up, when the guard came by it, and has counted the
renders since then as far as its counter goes. -/
structure LiveGuard.Started (maxRenders : Nat) (g : LiveGuard) : Prop where
  unused : g.guard.held = none → g.done = 0
  counted : ∀ c, g.guard.held = some c → ∃ first, (first = 0 ∨ first < maxRenders) ∧
    (first + g.done < 2 ^ 32 → c.context.renders = first + g.done)

namespace LiveGuard.Started

variable {maxRenders : Nat} {g : LiveGuard}

theorem empty : (LiveGuard.mk ⟨none⟩ 0).Started maxRenders where
  unused _ := rfl
  counted := by simp

theorem of_idle {c : Numbered} (hleft : c.context.renders < maxRenders) :
    (LiveGuard.mk (.holding c) 0).Started maxRenders where
  unused _ := rfl
  counted := by
    rintro c ⟨⟩
    exact ⟨c.context.renders, .inr hleft, fun _ => rfl⟩

theorem access (h : g.Started maxRenders) (new : Numbered) (hnew : new.context.renders = 0) :
    (LiveGuard.mk (.holding (g.guard.context new)) g.done).Started maxRenders where
  unused := by rintro ⟨⟩
  counted := by
    rintro c ⟨⟩
    unfold Guard.context
    cases hheld : g.guard.held with
    | none => exact ⟨0, .inl rfl, fun _ => by simp [h.unused hheld, hnew]⟩
    | some c => exact h.counted c hheld

theorem render (h : g.Started maxRenders) (counter : Counter) (j : Job) {c : Numbered}
    (hheld : g.guard.held = some c) :
    (LiveGuard.mk (.holding ⟨c.number, counter.count (j.render c.context).context⟩)
      (g.done + 1)).Started maxRenders where
  unused := by rintro ⟨⟩
  counted := by
    rintro c' ⟨⟩
    obtain ⟨first, hfirst, hcount⟩ := h.counted c hheld
    refine ⟨first, hfirst, fun (hfits : first + (g.done + 1) < 2 ^ 32) => ?_⟩
    have hrenders : (j.render c.context).context.renders = first + (g.done + 1) := by
      rw [j.render_renders, hcount (by omega), Nat.add_assoc]
    exact (congrArg counter.shown hrenders).trans (counter.shown_of_lt _ hfits)

end LiveGuard.Started

structure Usage where
  pool : Pool Numbered
  guards : List LiveGuard
  /-- How many contexts were made so far. -/
  made : Nat
  /-- The greatest number of guards that were out at one time. -/
  peak : Nat

namespace Usage

def start (maxRenders : Nat) : Usage := ⟨.new maxRenders, [], 0, 0⟩

def idleNumbers (u : Usage) : List Nat := u.pool.idle.map (·.number)

def heldNumbers (u : Usage) : List Nat := u.guards.filterMap (·.number?)

def numbers (u : Usage) : List Nat := u.idleNumbers ++ u.heldNumbers

inductive Step (registry : Markup.Registry) (counter : Counter) : Usage → Usage → Prop
  | get (u : Usage) :
      Step registry counter u
        { u with
          pool := u.pool.get.2
          guards := ⟨u.pool.get.1, 0⟩ :: u.guards
          peak := max u.peak (u.guards.length + 1) }
  /-- The context of a guard is asked for, and made if there is none yet. -/
  | access {u : Usage} {before after : List LiveGuard} {g : LiveGuard} :
      u.guards = before ++ g :: after →
      Step registry counter u
        { u with
          guards := before ++
            ⟨.holding (g.guard.context ⟨u.made, .ofRegistry registry⟩), g.done⟩ :: after
          made := if g.guard.held.isSome then u.made else u.made + 1 }
  | render {u : Usage} {before after : List LiveGuard} {g : LiveGuard} {c : Numbered} (j : Job) :
      u.guards = before ++ g :: after → g.guard.held = some c →
      Step registry counter u
        { u with
          guards := before ++
            ⟨.holding ⟨c.number, counter.count (j.render c.context).context⟩, g.done + 1⟩ :: after }
  | drop {u : Usage} {before after : List LiveGuard} {g : LiveGuard} :
      u.guards = before ++ g :: after →
      Step registry counter u
        { u with
          pool := u.pool.drop (·.context.renders) g.guard
          guards := before ++ after }

variable {registry : Markup.Registry} {counter : Counter} {maxRenders : Nat} {u v : Usage}

/-! Where contexts are. A step makes one more, moves one, or lets one go for good. -/

theorem get_cases (p : Pool Numbered) :
    (p.maxRenders = 0 ∨ p.idle = []) ∧ p.get = (⟨none⟩, p) ∨
      ∃ c rest, p.idle = c :: rest ∧ p.get = (.holding c, { p with idle := rest }) := by
  unfold Pool.get
  split
  · next hmax => exact .inl ⟨.inl hmax, rfl⟩
  · split
    · next hidle => exact .inl ⟨.inr hidle, rfl⟩
    · next c rest hidle => exact .inr ⟨c, rest, hidle, rfl⟩

theorem drop_cases (p : Pool Numbered) (g : Guard Numbered) :
    let renders (c : Numbered) := c.context.renders
    p.drop renders g = p ∨
      ∃ c, g.held = some c ∧ c.context.renders < p.maxRenders ∧
        p.drop renders g = { p with idle := c :: p.idle } := by
  unfold Pool.drop Pool.put
  cases hheld : g.held with
  | none => exact .inl rfl
  | some c =>
      by_cases hleft : c.context.renders < p.maxRenders
      · exact .inr ⟨c, rfl, hleft, if_pos hleft⟩
      · exact .inl (if_neg hleft)

theorem numbers_perm {before after : List LiveGuard} {g : LiveGuard}
    (hg : u.guards = before ++ g :: after) :
    u.numbers.Perm
      (g.number?.toList ++
        (u.pool.idle.map (·.number) ++ (before ++ after).filterMap (·.number?))) := by
  unfold numbers idleNumbers heldNumbers
  rw [hg, List.filterMap_append, List.filterMap_append]
  cases hnumber : g.number? with
  | none => simp [hnumber]
  | some k =>
      rw [List.filterMap_cons_some hnumber, ← List.append_assoc, Option.toList_some,
        List.singleton_append, ← List.append_assoc]
      exact List.perm_middle

theorem Step.maxRenders_eq (h : Step registry counter u v) :
    v.pool.maxRenders = u.pool.maxRenders := by
  cases h with
  | get => rcases get_cases u.pool with ⟨-, hget⟩ | ⟨c, rest, hcons, hget⟩ <;> rw [hget]
  | access hg => rfl
  | render j hg hheld => rfl
  | @drop before after g hg =>
      rcases drop_cases u.pool g.guard with hsame | ⟨c, hheld, hleft, hback⟩
      · rw [hsame]
      · rw [hback]

theorem Step.numbers (h : Step registry counter u v) :
    v.made = u.made + 1 ∧ v.numbers.Perm (u.made :: u.numbers) ∨
      v.made = u.made ∧ (v.numbers.Perm u.numbers ∨ ∃ k, u.numbers.Perm (k :: v.numbers)) := by
  cases h with
  | get =>
      refine .inr ⟨rfl, .inl ?_⟩
      rcases get_cases u.pool with ⟨-, hget⟩ | ⟨c, rest, hidle, hget⟩
      · simp [Usage.numbers, idleNumbers, heldNumbers, hget, List.filterMap_cons]
      · simp [Usage.numbers, idleNumbers, heldNumbers, hget, hidle]
  | @access before after g hg =>
      have hbefore := numbers_perm hg
      unfold LiveGuard.number? at hbefore
      unfold Guard.context
      cases hheld : g.guard.held with
      | none =>
          rw [hheld] at hbefore
          refine .inl ⟨rfl, (numbers_perm rfl).trans ?_⟩
          exact hbefore.symm.cons u.made
      | some c =>
          rw [hheld] at hbefore
          refine .inr ⟨rfl, .inl ((numbers_perm rfl).trans ?_)⟩
          exact hbefore.symm
  | render j hg hheld =>
      have hbefore := numbers_perm hg
      unfold LiveGuard.number? at hbefore
      rw [hheld] at hbefore
      refine .inr ⟨rfl, .inl ((numbers_perm rfl).trans ?_)⟩
      exact hbefore.symm
  | @drop before after g hg =>
      have hbefore := numbers_perm hg
      unfold LiveGuard.number? at hbefore
      unfold Pool.drop Pool.put
      refine .inr ⟨rfl, ?_⟩
      cases hheld : g.guard.held with
      | none =>
          rw [hheld] at hbefore
          exact .inl hbefore.symm
      | some c =>
          rw [hheld] at hbefore
          by_cases hleft : c.context.renders < u.pool.maxRenders
          · left
            simp only [hleft, if_true]
            exact hbefore.symm
          · right
            refine ⟨c.number, ?_⟩
            simp only [hleft, if_false]
            exact hbefore

structure Sound (maxRenders : Nat) (u : Usage) : Prop where
  maxRenders_eq : u.pool.maxRenders = maxRenders
  nodup : u.numbers.Nodup
  number_lt : ∀ k ∈ u.numbers, k < u.made
  idle_lt : ∀ c ∈ u.pool.idle, c.context.renders < maxRenders
  started : ∀ g ∈ u.guards, g.Started maxRenders
  room : u.pool.idle.length + u.guards.length ≤ u.peak

theorem sound_start (maxRenders : Nat) : (start maxRenders).Sound maxRenders where
  maxRenders_eq := rfl
  nodup := List.nodup_nil
  number_lt := by simp [start, Pool.new, numbers, idleNumbers, heldNumbers]
  idle_lt := by simp [start, Pool.new]
  started := by simp [start]
  room := by simp [start, Pool.new]

namespace Sound

theorem idle_eq_nil (hu : u.Sound maxRenders) (hmax : maxRenders = 0 ∨ u.pool.idle = []) :
    u.pool.idle = [] := by
  rcases hmax with rfl | hidle
  · exact List.eq_nil_iff_forall_not_mem.mpr fun c hc => Nat.not_lt_zero _ (hu.idle_lt c hc)
  · exact hidle

theorem step_nodup (hu : u.Sound maxRenders) (h : Step registry counter u v) :
    v.numbers.Nodup := by
  rcases h.numbers with ⟨-, hmore⟩ | ⟨-, hsame | ⟨k, hless⟩⟩
  · refine hmore.nodup_iff.mpr (List.nodup_cons.mpr ⟨fun hmade => ?_, hu.nodup⟩)
    exact Nat.lt_irrefl _ (hu.number_lt _ hmade)
  · exact hsame.nodup_iff.mpr hu.nodup
  · exact (List.nodup_cons.mp (hless.nodup_iff.mp hu.nodup)).2

theorem step_number_lt (hu : u.Sound maxRenders) (h : Step registry counter u v) :
    ∀ k ∈ v.numbers, k < v.made := by
  intro k hk
  rcases h.numbers with ⟨hmade, hmore⟩ | ⟨hmade, hsame | ⟨k', hless⟩⟩
  · rcases List.mem_cons.mp (hmore.mem_iff.mp hk) with rfl | hk
    · omega
    · have := hu.number_lt k hk
      omega
  · rw [hmade]
    exact hu.number_lt k (hsame.mem_iff.mp hk)
  · rw [hmade]
    exact hu.number_lt k (hless.mem_iff.mpr (List.mem_cons_of_mem _ hk))

theorem step_idle_lt (hu : u.Sound maxRenders) (h : Step registry counter u v) :
    ∀ c ∈ v.pool.idle, c.context.renders < maxRenders := by
  have hidle := hu.idle_lt
  cases h with
  | get =>
      rcases get_cases u.pool with ⟨-, hget⟩ | ⟨c, rest, hcons, hget⟩
      · rw [hget]
        exact hidle
      · rw [hget]
        rw [hcons] at hidle
        exact (List.forall_mem_cons.mp hidle).2
  | access hg => exact hidle
  | render j hg hheld => exact hidle
  | @drop before after g hg =>
      rcases drop_cases u.pool g.guard with hsame | ⟨c, hheld, hleft, hback⟩
      · rw [hsame]
        exact hidle
      · rw [hback]
        rw [hu.maxRenders_eq] at hleft
        exact List.forall_mem_cons.mpr ⟨hleft, hidle⟩

theorem step_room (hu : u.Sound maxRenders) (h : Step registry counter u v) :
    v.pool.idle.length + v.guards.length ≤ v.peak := by
  have hroom := hu.room
  cases h with
  | get =>
      rcases get_cases u.pool with ⟨hmax, hget⟩ | ⟨c, rest, hcons, hget⟩
      · rw [hu.maxRenders_eq] at hmax
        simp only [hget, hu.idle_eq_nil hmax, List.length_nil, List.length_cons]
        omega
      · simp only [hcons, List.length_cons] at hroom
        simp only [hget, List.length_cons]
        omega
  | access hg =>
      rw [hg] at hroom
      simpa using hroom
  | render j hg hheld =>
      rw [hg] at hroom
      simpa using hroom
  | @drop before after g hg =>
      rw [hg] at hroom
      simp only [List.length_append, List.length_cons] at hroom ⊢
      rcases drop_cases u.pool g.guard with hsame | ⟨c, hheld, hleft, hback⟩
      · rw [hsame]
        omega
      · rw [hback, List.length_cons]
        omega

theorem step_started (hu : u.Sound maxRenders) (h : Step registry counter u v) :
    ∀ g ∈ v.guards, g.Started maxRenders := by
  have hstarted := hu.started
  cases h with
  | get =>
      have hget : (LiveGuard.mk u.pool.get.1 0).Started maxRenders := by
        rcases get_cases u.pool with ⟨-, hget⟩ | ⟨c, rest, hcons, hget⟩
        · rw [hget]
          exact .empty
        · rw [hget]
          exact .of_idle (hu.idle_lt c (hcons ▸ List.mem_cons_self))
      exact List.forall_mem_cons.mpr ⟨hget, hstarted⟩
  | access hg =>
      rw [hg, List.forall_mem_append, List.forall_mem_cons] at hstarted
      rw [List.forall_mem_append, List.forall_mem_cons]
      exact ⟨hstarted.1, hstarted.2.1.access _ rfl, hstarted.2.2⟩
  | render j hg hheld =>
      rw [hg, List.forall_mem_append, List.forall_mem_cons] at hstarted
      rw [List.forall_mem_append, List.forall_mem_cons]
      exact ⟨hstarted.1, hstarted.2.1.render counter j hheld, hstarted.2.2⟩
  | drop hg =>
      rw [hg, List.forall_mem_append, List.forall_mem_cons] at hstarted
      rw [List.forall_mem_append]
      exact ⟨hstarted.1, hstarted.2.2⟩

theorem step (hu : u.Sound maxRenders) (h : Step registry counter u v) :
    v.Sound maxRenders where
  maxRenders_eq := h.maxRenders_eq.trans hu.maxRenders_eq
  nodup := hu.step_nodup h
  number_lt := hu.step_number_lt h
  idle_lt := hu.step_idle_lt h
  started := hu.step_started h
  room := hu.step_room h

theorem run (hu : u.Sound maxRenders)
    (h : Relation.ReflTransGen (Step registry counter) u v) : v.Sound maxRenders := by
  induction h with
  | refl => exact hu
  | tail _ hstep ih => exact ih.step hstep

theorem renders_le (hu : u.Sound maxRenders) {g : LiveGuard} (hg : g ∈ u.guards) {c : Numbered}
    (hheld : g.guard.held = some c) (hmax : maxRenders < 2 ^ 32) (hdone : g.done ≤ 1) :
    c.context.renders ≤ max 1 maxRenders ∧ (g.done = 0 → c.context.renders + 1 < 2 ^ 32) := by
  obtain ⟨first, hfirst, hcount⟩ := (hu.started g hg).counted c hheld
  have := hcount (by omega)
  omega

end Sound

/-- A context that is let go is never seen again, and the others were made later. -/
theorem run_numbers (h : Relation.ReflTransGen (Step registry counter) u v) :
    u.made ≤ v.made ∧ ∀ k < u.made, k ∈ v.numbers → k ∈ u.numbers := by
  induction h with
  | refl => exact ⟨Nat.le_refl _, fun k _ hk => hk⟩
  | tail _ hstep ih =>
      obtain ⟨hmade, hkept⟩ := ih
      rcases hstep.numbers with ⟨hnext, hmore⟩ | ⟨hnext, hsame | ⟨k', hless⟩⟩
      · refine ⟨by omega, fun k hk hmem => ?_⟩
        rcases List.mem_cons.mp (hmore.mem_iff.mp hmem) with rfl | hmem
        · omega
        · exact hkept k hk hmem
      · exact ⟨by omega, fun k hk hmem => hkept k hk (hsame.mem_iff.mp hmem)⟩
      · exact ⟨by omega, fun k hk hmem =>
          hkept k hk (hless.mem_iff.mpr (List.mem_cons_of_mem _ hmem))⟩

/-- Nothing that can happen brings a context back. -/
def Discarded (registry : Markup.Registry) (counter : Counter) (u : Usage) (k : Nat) : Prop :=
  ∀ v, Relation.ReflTransGen (Step registry counter) u v → k ∉ v.numbers

/-- A context is held by one guard, waits once, or is gone for good. -/
def InOnePlace (registry : Markup.Registry) (counter : Counter) (u : Usage) (k : Nat) : Prop :=
  u.heldNumbers.count k = 1 ∧ u.idleNumbers.count k = 0 ∧ ¬u.Discarded registry counter k ∨
  u.heldNumbers.count k = 0 ∧ u.idleNumbers.count k = 1 ∧ ¬u.Discarded registry counter k ∨
  u.heldNumbers.count k = 0 ∧ u.idleNumbers.count k = 0 ∧ u.Discarded registry counter k

theorem Sound.inOnePlace (hu : u.Sound maxRenders) {k : Nat} (hk : k < u.made) :
    u.InOnePlace registry counter k := by
  have hcount : u.idleNumbers.count k + u.heldNumbers.count k = u.numbers.count k :=
    List.count_append.symm
  by_cases hmem : k ∈ u.numbers
  · have hone : u.numbers.count k = 1 := List.count_eq_one_of_mem hu.nodup hmem
    have hpresent : ¬u.Discarded registry counter k := fun hgone => hgone u .refl hmem
    rcases Nat.eq_zero_or_pos (u.heldNumbers.count k) with hheld | hheld
    · exact .inr (.inl ⟨hheld, by omega, hpresent⟩)
    · exact .inl ⟨by omega, by omega, hpresent⟩
  · have hnone : u.numbers.count k = 0 := List.count_eq_zero_of_not_mem hmem
    refine .inr (.inr ⟨by omega, by omega, fun v h hv => hmem ?_⟩)
    exact (run_numbers h).2 k hk hv

/-! Pages. A page is rendered by one user, in four steps. -/

/-- A step after which no guard was used for more than one render. -/
def FrugalStep (registry : Markup.Registry) (counter : Counter) (u v : Usage) : Prop :=
  Step registry counter u v ∧ ∀ g ∈ v.guards, g.done ≤ 1

def contexts (p : Pool Numbered) : Pool Context := ⟨p.maxRenders, p.idle.map (·.context)⟩

@[simp] theorem contexts_get (p : Pool Numbered) :
    (contexts p).get = (⟨p.get.1.held.map (·.context)⟩, contexts p.get.2) := by
  unfold Pool.get contexts
  by_cases hmax : p.maxRenders = 0
  · simp [hmax]
  · cases hidle : p.idle <;> simp [hmax, hidle, Guard.holding]

@[simp] theorem contexts_drop (p : Pool Numbered) (c : Numbered) :
    contexts (p.drop (·.context.renders) (.holding c)) =
      (contexts p).drop Context.renders (.holding c.context) := by
  unfold Pool.drop Pool.put contexts Guard.holding
  dsimp only
  split <;> rfl

@[simp] theorem context_map (g : Guard Numbered) (new : Numbered) :
    (Guard.mk (g.held.map (·.context))).context new.context = (g.context new).context := by
  unfold Guard.context
  cases g.held <;> rfl

def taken (registry : Markup.Registry) (u : Usage) : Numbered :=
  u.pool.get.1.context ⟨u.made, .ofRegistry registry⟩

def rendered (registry : Markup.Registry) (counter : Counter) (u : Usage) (j : Job) : Numbered :=
  ⟨(u.taken registry).number, counter.count (j.render (u.taken registry).context).context⟩

def afterUse (registry : Markup.Registry) (counter : Counter) (u : Usage) (j : Job) : Usage where
  pool := u.pool.get.2.drop (·.context.renders) (.holding (u.rendered registry counter j))
  guards := u.guards
  made := if u.pool.get.1.held.isSome then u.made else u.made + 1
  peak := max u.peak (u.guards.length + 1)

theorem run_afterUse (hdone : ∀ g ∈ u.guards, g.done ≤ 1) (j : Job) :
    Relation.ReflTransGen (FrugalStep registry counter) u (u.afterUse registry counter j) := by
  let u₁ : Usage := { u with
    pool := u.pool.get.2
    guards := ⟨u.pool.get.1, 0⟩ :: u.guards
    peak := max u.peak (u.guards.length + 1) }
  let u₂ : Usage := { u₁ with
    guards := ⟨.holding (u.taken registry), 0⟩ :: u.guards
    made := if u.pool.get.1.held.isSome then u.made else u.made + 1 }
  let u₃ : Usage := { u₂ with
    guards := ⟨.holding (u.rendered registry counter j), 1⟩ :: u.guards }
  have h₁ : Step registry counter u u₁ := .get u
  have h₂ : Step registry counter u₁ u₂ :=
    @Step.access registry counter u₁ [] u.guards ⟨u.pool.get.1, 0⟩ rfl
  have h₃ : Step registry counter u₂ u₃ :=
    @Step.render registry counter u₂ [] u.guards ⟨.holding (u.taken registry), 0⟩
      (u.taken registry) j rfl rfl
  have h₄ : Step registry counter u₃ (u.afterUse registry counter j) :=
    @Step.drop registry counter u₃ [] u.guards ⟨.holding (u.rendered registry counter j), 1⟩ rfl
  have hfrugal (g : LiveGuard) (hg : g.done ≤ 1) : ∀ g' ∈ g :: u.guards, g'.done ≤ 1 :=
    List.forall_mem_cons.mpr ⟨hg, hdone⟩
  have hrun₁ : Relation.ReflTransGen (FrugalStep registry counter) u u₁ :=
    .single ⟨h₁, hfrugal _ (Nat.zero_le 1)⟩
  have hrun₃ : Relation.ReflTransGen (FrugalStep registry counter) u u₃ :=
    (hrun₁.tail ⟨h₂, hfrugal _ (Nat.zero_le 1)⟩).tail ⟨h₃, hfrugal _ (Nat.le_refl 1)⟩
  exact hrun₃.tail ⟨h₄, hdone⟩

theorem Sound.taken_renders (hu : u.Sound maxRenders) (registry : Markup.Registry) :
    (u.taken registry).context.renders = 0 ∨ (u.taken registry).context.renders < maxRenders := by
  unfold taken
  rcases get_cases u.pool with ⟨-, hget⟩ | ⟨c, rest, hidle, hget⟩
  · rw [hget]
    exact .inl rfl
  · rw [hget]
    exact .inr (hu.idle_lt c (hidle ▸ List.mem_cons_self))

theorem Sound.page_render (hu : u.Sound maxRenders) (hmax : maxRenders < 2 ^ 32)
    (hdone : ∀ g ∈ u.guards, g.done ≤ 1) (h : PageHandler) (files : Files) (name : String) :
    ∃ v, Relation.ReflTransGen (FrugalStep registry counter) u v ∧ v.guards = u.guards ∧
      contexts v.pool = (h.render registry files name (contexts u.pool)).pool := by
  unfold PageHandler.render
  rcases (h.source files name).run [] with ⟨source, opened⟩
  rcases source with e | source
  · exact ⟨u, .refl, rfl, rfl⟩
  · rcases source with _ | ⟨script, vars⟩
    · exact ⟨u, .refl, rfl, rfl⟩
    · let j : Job := ⟨script, some vars, files⟩
      have hcount : counter.count (j.render (u.taken registry).context).context =
          (j.render (u.taken registry).context).context := by
        apply counter.count_of_lt
        rw [j.render_renders]
        have := hu.taken_renders registry
        omega
      have hcontext : (Guard.mk (u.pool.get.1.held.map (·.context))).context
          (.ofRegistry registry) = (u.taken registry).context := context_map u.pool.get.1 ⟨u.made, _⟩
      refine ⟨u.afterUse registry counter j, run_afterUse hdone j, rfl, ?_⟩
      rw [contexts_get, afterUse, contexts_drop]
      dsimp only
      rw [hcontext]
      exact congrArg (fun c => (contexts u.pool.get.2).drop Context.renders (.holding c)) hcount

end Usage

/-- A pool keeps order whatever its users do, in whatever order: each context is in one place, what waits
has renders left, and waiting contexts and users together are no more than there were users at one time. A
counter of renders does not overflow where every guard is used for one render at most, as pages use it. -/
theorem pool_usage_sound (registry : Markup.Registry) (counter : Counter) (maxRenders : Nat)
    {u : Usage}
    (h : Relation.ReflTransGen (Usage.Step registry counter) (Usage.start maxRenders) u) :
    (∀ k < u.made, u.InOnePlace registry counter k) ∧
    (∀ c ∈ u.pool.idle, c.context.renders < maxRenders) ∧
    (maxRenders = 0 → u.pool.idle = [] ∧ ∀ g ∈ u.guards, ∀ c, g.guard.held = some c →
      g.done < 2 ^ 32 → c.context.renders = g.done) ∧
    u.pool.idle.length + u.guards.length ≤ u.peak ∧
    (maxRenders < 2 ^ 32 → (∀ g ∈ u.guards, g.done ≤ 1) →
      (∀ c ∈ u.pool.idle, c.context.renders ≤ max 1 maxRenders) ∧
      (∀ g ∈ u.guards, ∀ c, g.guard.held = some c →
        c.context.renders ≤ max 1 maxRenders ∧ (g.done = 0 → c.context.renders + 1 < 2 ^ 32)) ∧
      ∀ (h : PageHandler) (files : Files) (name : String),
        ∃ v, Relation.ReflTransGen (Usage.FrugalStep registry counter) u v ∧
          v.guards = u.guards ∧ Usage.contexts v.pool =
            (h.render registry files name (Usage.contexts u.pool)).pool) := by
  have hu := (Usage.sound_start maxRenders).run h
  refine ⟨fun k hk => hu.inOnePlace hk, hu.idle_lt, ?_, hu.room, ?_⟩
  · rintro rfl
    refine ⟨hu.idle_eq_nil (.inl rfl), fun g hg c hheld hfits => ?_⟩
    obtain ⟨first, hfirst, hcount⟩ := (hu.started g hg).counted c hheld
    have := hcount (by omega)
    omega
  · intro hmax hdone
    refine ⟨fun c hc => ?_, fun g hg c hheld => hu.renders_le hg hheld hmax (hdone g hg),
      hu.page_render hmax hdone⟩
    have := hu.idle_lt c hc
    omega

/-- A guard is given back after one render, and the next one gets the same context. -/
theorem pool_usage_sound_reuse :
    let registry := Markup.Registry.empty
    let counter : Counter := ⟨(· % 2 ^ 32), fun _ => Nat.mod_eq_of_lt⟩
    ∃ u, Relation.ReflTransGen (Usage.Step registry counter) (Usage.start 2) u ∧
      u.heldNumbers = [0] ∧ u.InOnePlace registry counter 0 ∧
      ∀ g ∈ u.guards, ∀ c, g.guard.held = some c → c.context.renders ≤ 2 := by
  intro registry counter
  let j : Job := ⟨"return 1", none, ⟨[]⟩⟩
  let used : Numbered := (Usage.start 2).rendered registry counter j
  let u : Usage := ⟨⟨2, []⟩, [⟨.holding used, 0⟩], 1, 1⟩
  have hfirst : Relation.ReflTransGen (Usage.FrugalStep registry counter) (.start 2)
      ((Usage.start 2).afterUse registry counter j) :=
    Usage.run_afterUse (fun g hg => absurd hg List.not_mem_nil) j
  have hback : (Usage.start 2).afterUse registry counter j = ⟨⟨2, [used]⟩, [], 1, 1⟩ := by
    have hrenders : used.context.renders = 1 := congrArg counter.shown (j.render_renders _)
    have hleft : used.context.renders < 2 := by
      rw [hrenders]
      exact Nat.lt_succ_self 1
    exact congrArg (Usage.mk · [] 1 1) (if_pos hleft)
  rw [hback] at hfirst
  have hrun : Relation.ReflTransGen (Usage.Step registry counter) (.start 2) u :=
    (hfirst.lift id fun _ _ hstep => hstep.1).tail (.get ⟨⟨2, [used]⟩, [], 1, 1⟩)
  obtain ⟨hplace, -, -, -, hcount⟩ := pool_usage_sound registry counter 2 hrun
  refine ⟨u, hrun, rfl, hplace 0 Nat.zero_lt_one, fun g hg c hheld => ?_⟩
  have hdone : ∀ g ∈ u.guards, g.done ≤ 1 := List.forall_mem_singleton.mpr (Nat.zero_le 1)
  exact ((hcount (by decide) hdone).2.1 g hg c hheld).1

end Pagewright.Page
