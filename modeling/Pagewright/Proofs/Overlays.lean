import Pagewright.Proofs.BoundVariables
import Pagewright.Proofs.Environments
import Pagewright.Proofs.FreshContext
import Pagewright.Script.Run

/-!
Environments as private overlays. Scripts read and assign the names of their environments in any
order, and new environments come in between; what a name then reads as is what was last assigned to
it in the same environment, and what the globals hold for it where that is nil.
-/
namespace Pagewright.Script

/-! ### Steps of the machine -/

/-- So many steps of the machine lead from one configuration to another. -/
def Leads : Nat → Config → Config → Prop
  | 0, c, c' => c = c'
  | n + 1, c, c' => ∃ c₁, Machine.step c = .more c₁ ∧ Leads n c₁ c'

namespace Leads

variable {c c₁ c₂ : Config} {m n : Nat}

theorem one (h : Machine.step c = .more c₁) : Leads 1 c c₁ := ⟨c₁, h, rfl⟩

theorem trans (h : Leads m c c₁) (h' : Leads n c₁ c₂) : Leads (m + n) c c₂ := by
  induction m generalizing c with
  | zero =>
    cases h
    rwa [Nat.zero_add]
  | succ m ih =>
    obtain ⟨c', hstep, hrest⟩ := h
    rw [Nat.succ_add]
    exact ⟨c', hstep, ih hrest⟩

theorem deliver_unique {vs vs' : List Value} {s s' : Store} (h : Leads m c ⟨.deliver vs, [], s⟩)
    (h' : Leads n c ⟨.deliver vs', [], s'⟩) : vs = vs' ∧ s = s' := by
  induction m generalizing c n with
  | zero =>
    cases h
    cases n with
    | zero => cases h'; exact ⟨rfl, rfl⟩
    | succ n =>
      obtain ⟨_, hstep, _⟩ := h'
      cases hstep
  | succ m ih =>
    obtain ⟨c₁, hstep, hrest⟩ := h
    cases n with
    | zero =>
      cases h'
      cases hstep
    | succ n =>
      obtain ⟨c₂, hstep', hrest'⟩ := h'
      cases hstep.symm.trans hstep'
      exact ih hrest hrest'

theorem run (h : Leads n c c₁) (fuel : Nat) : Script.run (fuel + n) c = Script.run fuel c₁ := by
  induction n generalizing c with
  | zero => rw [h, Nat.add_zero]
  | succ n ih =>
    obtain ⟨c', hstep, hrest⟩ := h
    rw [← Nat.add_assoc, Script.run, hstep]
    exact ih hrest

end Leads

/-! ### Names in a script -/

/-- A spot in a script that runs: the names in scope, and the frame of the running function. -/
structure Spot where
  scope : Scope
  frame : Env
  line : Nat

namespace Spot

variable {p : Spot} {s : Store} {env hops steps : Nat} {name : Bytes}

/-- A name as it is, or after so many times `_G` and a dot. -/
def mention (p : Spot) : Nat → Bytes → Expr
  | 0, name => p.scope.resolve name p.line
  | hops + 1, name => .index (p.mention hops selfBytes) (.constant (.string name)) p.line

def opening : Nat → Bytes → Bytes
  | 0, name => name
  | _ + 1, _ => selfBytes

structure Sees (p : Spot) (s : Store) (env : Nat) (name : Bytes) : Prop where
  no_local : Scope.find name 0 p.scope.names = none
  holds : ∃ i a, Scope.find Scope.environment 0 p.scope.names = some (i, a) ∧
    s.heap.cells.getD (p.frame.slots.getD i 0) .nil = .table env

def Reads (p : Spot) (s : Store) (hops : Nat) (name : Bytes) (v : Value) (s' : Store) : Prop :=
  ∀ stack, ∃ steps,
    Leads steps ⟨.eval (p.mention hops name) p.frame, stack, s⟩ ⟨.deliver [v], stack, s'⟩

/-- A name reads as one value and as nothing else, and to read it changes nothing. -/
def Shows (p : Spot) (s : Store) (hops : Nat) (name : Bytes) (v : Value) : Prop :=
  ∀ v' s', p.Reads s hops name v' s' ↔ v' = v ∧ s' = s

theorem Shows.unique {v v' : Value} (h : p.Shows s hops name v) (h' : p.Shows s hops name v') :
    v = v' :=
  ((h' v s).mp ((h v s).mpr ⟨rfl, rfl⟩)).1

def Targets (p : Spot) (s : Store) (hops : Nat) (name : Bytes) (env : Nat) : Prop :=
  ∀ places values stack rest, ∃ steps,
    Leads steps (Machine.target places values p.frame stack s (p.mention hops name :: rest))
      (Machine.target (.field (.table env) (.string name) p.line :: places) values p.frame stack s
        rest)

variable {globals : Nat} {own : Bytes → Value}

theorem Sees.variable_leads (h : p.Sees s env name) : ∃ i,
    p.scope.resolve name p.line = .index (.variable i) (.constant (.string name)) p.line ∧
      ∀ stack,
        Leads 1 ⟨.eval (.variable i) p.frame, stack, s⟩ ⟨.deliver [.table env], stack, s⟩ := by
  obtain ⟨i, a, hfind, hcell⟩ := h.holds
  refine ⟨i, ?_, fun stack => .one (congrArg Next.more ?_)⟩
  · unfold Scope.resolve
    rw [h.no_local, hfind]
  · rw [Machine.eval, Machine.deliver, hcell]

theorem index_leads (ho : s.heap.Overlay globals env own)
    (hplain : (s.heap.table globals).metatable = none) {object : Expr} {frame : Env}
    (hobject : ∀ stack,
      Leads steps ⟨.eval object frame, stack, s⟩ ⟨.deliver [.table env], stack, s⟩)
    (name : Bytes) (line : Nat) (stack : List Frame) :
    Leads (1 + steps + 3) ⟨.eval (.index object (.constant (.string name)) line) frame, stack, s⟩
      ⟨.deliver [(own name).orElse ((s.heap.table globals).get (.string name))], stack, s⟩ := by
  have hfound : Machine.receive [.string name] (.key (.table env) (frame.site line)) stack s =
      ⟨.deliver [(own name).orElse ((s.heap.table globals).get (.string name))], stack, s⟩ := by
    change Machine.answer (index s longestChain (.table env) (.string name)) _ stack s = _
    rw [index_overlay ho hplain]
    rfl
  have hkey : Leads 3
      ⟨.deliver [.table env], .object (.constant (.string name)) frame line :: stack, s⟩
      (Machine.receive [.string name] (.key (.table env) (frame.site line)) stack s) :=
    ⟨_, rfl, _, rfl, _, rfl, rfl⟩
  rw [hfound] at hkey
  exact ((Leads.one rfl).trans (hobject _)).trans hkey

theorem Sees.mention_object (ho : s.heap.Overlay globals env own)
    (hplain : (s.heap.table globals).metatable = none) (hself : own selfBytes = .table env)
    (h : p.Sees s env (opening hops name)) : ∃ object steps,
      p.mention hops name = .index object (.constant (.string name)) p.line ∧ ∀ stack,
        Leads steps ⟨.eval object p.frame, stack, s⟩ ⟨.deliver [.table env], stack, s⟩ := by
  -- Each `_G` is read from the environment and gives it again, so the next name starts from there.
  induction hops generalizing name with
  | zero =>
    obtain ⟨i, hresolve, hleads⟩ := h.variable_leads
    exact ⟨.variable i, 1, hresolve, hleads⟩
  | succ hops ih =>
    have hopening : p.Sees s env (opening hops selfBytes) := by
      cases hops <;> exact h
    obtain ⟨object, steps, hmention, hleads⟩ := ih hopening
    refine ⟨p.mention hops selfBytes, 1 + steps + 3, rfl, fun stack => ?_⟩
    have hread := index_leads ho hplain hleads selfBytes p.line stack
    rw [hself] at hread
    rw [hmention]
    exact hread

theorem Sees.shows (ho : s.heap.Overlay globals env own)
    (hplain : (s.heap.table globals).metatable = none) (hself : own selfBytes = .table env)
    (h : p.Sees s env (opening hops name)) :
    p.Shows s hops name ((own name).orElse ((s.heap.table globals).get (.string name))) := by
  intro v s'
  obtain ⟨object, steps, hmention, hobject⟩ := h.mention_object ho hplain hself
  have hleads := index_leads ho hplain hobject name p.line
  rw [← hmention] at hleads
  constructor
  · intro hreads
    obtain ⟨_, hread⟩ := hreads []
    obtain ⟨hv, hs⟩ := hread.deliver_unique (hleads [])
    exact ⟨List.singleton_inj.mp hv, hs⟩
  · rintro ⟨rfl, rfl⟩
    exact fun stack => ⟨_, hleads stack⟩

theorem Sees.targets (ho : s.heap.Overlay globals env own)
    (hplain : (s.heap.table globals).metatable = none) (hself : own selfBytes = .table env)
    (h : p.Sees s env (opening hops name)) : p.Targets s hops name env := by
  intro places values stack rest
  obtain ⟨object, steps, hmention, hobject⟩ := h.mention_object ho hplain hself
  have hkey : Leads 3
      ⟨.deliver [.table env],
        .targetObject (.constant (.string name)) p.line rest places values p.frame :: stack, s⟩
      (Machine.target (.field (.table env) (.string name) p.line :: places) values p.frame stack s
        rest) :=
    ⟨_, rfl, _, rfl, _, rfl, rfl⟩
  rw [hmention, Machine.target]
  exact ⟨steps + 3, (hobject _).trans hkey⟩

end Spot

def Stores (s : Store) (env : Nat) (name : Bytes) (v : Value) (s' : Store) : Prop :=
  ∀ chunk line stack rest,
    Machine.assign chunk stack s ((.field (.table env) (.string name) line, v) :: rest) =
      Machine.assign chunk stack s' rest

theorem stores_iff {s s' : Store} {globals env : Nat} {own : Bytes → Value}
    (ho : s.heap.Overlay globals env own) (name : Bytes) (v : Value) : Stores s env name v s' ↔
      s' = { s with heap := s.heap.setField env (.string name) v } := by
  have hassign (chunk : Bytes) (line : Nat) (stack : List Frame) (rest : List (Place × Value)) :
      Machine.assign chunk stack s ((.field (.table env) (.string name) line, v) :: rest) =
        Machine.assign chunk stack { s with heap := s.heap.setField env (.string name) v } rest := by
    rw [Machine.assign, storing_overlay ho]
  constructor
  · intro h
    have hdone := (h [] 0 [] []).symm.trans (hassign [] 0 [] [])
    exact congrArg Config.store hdone
  · rintro rfl
    exact hassign

/-! ### Histories -/

structure Moment where
  store : Store
  environments : List Nat

inductive Access where
  /-- A page or a component is entered, with an environment of its own. -/
  | enter
  /-- A name is read, after so many `_G`. -/
  | read (chunk hops : Nat) (name : Bytes)
  | assign (chunk : Nat) (name : Bytes) (v : Value)
  /-- Work on other tables. -/
  | other

def Moment.Concerns (m : Moment) (r : Nat) : Prop :=
  r = m.store.globals ∨
    ∃ env ∈ m.environments, r = env ∨ (m.store.heap.table env).metatable = some r

structure Moment.Spared (m : Moment) (s' : Store) : Prop where
  globals : s'.globals = m.store.globals
  room : m.store.heap.tables.size ≤ s'.heap.tables.size
  kept : ∀ r, m.Concerns r → s'.heap.table r = m.store.heap.table r

inductive Happens : Access → Moment → Moment → Prop
  | enter {s s' : Store} {envs : List Nat} {env : Nat}
      (h : Chunk.newEnvironment s = .ok (.table env) s') :
      Happens .enter ⟨s, envs⟩ ⟨s', envs ++ [env]⟩
  | read {s s' : Store} {envs : List Nat} {chunk env hops : Nat} {name : Bytes} {p : Spot}
      {v : Value} (hchunk : envs[chunk]? = some env) (hsees : p.Sees s env (Spot.opening hops name))
      (h : p.Reads s hops name v s') : Happens (.read chunk hops name) ⟨s, envs⟩ ⟨s', envs⟩
  | assign {s s' : Store} {envs : List Nat} {chunk env : Nat} {name : Bytes} {v : Value}
      (hchunk : envs[chunk]? = some env) (h : Stores s env name v s') :
      Happens (.assign chunk name v) ⟨s, envs⟩ ⟨s', envs⟩
  | other {m : Moment} {s' : Store} (h : m.Spared s') : Happens .other m ⟨s', m.environments⟩

inductive History (start : Moment) : List Access → Moment → Prop
  | start : History start [] start
  | next {a : Access} {past : List Access} {m m' : Moment} (h : History start past m)
      (hnext : Happens a m m') : History start (a :: past) m'

/-- What was last assigned to a name in an environment. Its making assigns it to `_G`. -/
def lastAssigned (chunk env : Nat) : List Access → Bytes → Value
  | [], name => selfAlone env name
  | .assign c n v :: past, name =>
    if c = chunk ∧ n = name then v else lastAssigned chunk env past name
  | _ :: past, name => lastAssigned chunk env past name

def SelfKept (past : List Access) : Prop := ∀ c v, .assign c selfBytes v ∉ past

theorem selfKept_cons {a : Access} {past : List Access} :
    SelfKept (a :: past) ↔ (∀ c v, Access.assign c selfBytes v ≠ a) ∧ SelfKept past := by
  simp only [SelfKept, List.mem_cons, not_or, forall_and]

theorem lastAssigned_self {past : List Access} (h : SelfKept past) (chunk env : Nat) :
    lastAssigned chunk env past selfBytes = .table env := by
  induction past with
  | nil => rw [lastAssigned, selfAlone, if_pos rfl]
  | cons a past ih =>
    obtain ⟨hfirst, hpast⟩ := selfKept_cons.mp h
    cases a with
    | assign c n v =>
      have hne : ¬(c = chunk ∧ n = selfBytes) := by
        rintro ⟨-, rfl⟩
        exact hfirst c v rfl
      rw [lastAssigned, if_neg hne, ih hpast]
    | _ => exact ih hpast

private theorem lastAssigned_new {past : List Access} {chunk : Nat}
    (h : ∀ c n v, .assign c n v ∈ past → c < chunk) (env : Nat) :
    lastAssigned chunk env past = selfAlone env := by
  induction past with
  | nil => rfl
  | cons a past ih =>
    have hpast : lastAssigned chunk env past = selfAlone env :=
      ih fun c n v hmem => h c n v (List.mem_cons_of_mem a hmem)
    funext name
    cases a with
    | assign c n v =>
      rw [lastAssigned, if_neg fun heq => (h c n v List.mem_cons_self).ne heq.1, hpast]
    | _ => exact congrFun hpast name

@[simp] theorem lastAssigned_assign (c chunk env : Nat) (n : Bytes) (v : Value)
    (past : List Access) :
    lastAssigned chunk env (.assign c n v :: past) =
      if c = chunk then Function.update (lastAssigned chunk env past) n v
      else lastAssigned chunk env past := by
  funext name
  rw [lastAssigned]
  by_cases hc : c = chunk
  · by_cases hn : n = name
    · subst hn
      simp [hc]
    · rw [if_neg fun heq => hn heq.2, if_pos hc, Function.update_of_ne (Ne.symm hn)]
  · rw [if_neg fun heq => hc heq.1, if_neg hc]

private theorem lastAssigned_of_ne {a : Access} (ha : ∀ c n v, a ≠ .assign c n v) (chunk env : Nat)
    (past : List Access) : lastAssigned chunk env (a :: past) = lastAssigned chunk env past := by
  cases a with
  | assign c n v => exact absurd rfl (ha c n v)
  | _ => rfl

/-- What holds of environments at any moment. -/
structure Overlays (start : Store) (past : List Access) (m : Moment) : Prop where
  globals : m.store.globals = start.globals
  globals_kept : m.store.heap.table start.globals = start.heap.table start.globals
  room : start.heap.tables.size ≤ m.store.heap.tables.size
  newer : ∀ env ∈ m.environments, start.heap.tables.size ≤ env
  /-- Each is two tables. -/
  apart : m.environments.Pairwise fun env env' => env + 1 < env'
  known : ∀ c n v, .assign c n v ∈ past → c < m.environments.length
  overlay : ∀ chunk env, m.environments[chunk]? = some env →
    m.store.heap.Overlay start.globals env (lastAssigned chunk env past)

namespace Overlays

variable {start : Store} {past : List Access} {m : Moment} {chunk env : Nat}

theorem overlay_of_mem (h : Overlays start past m) (hmem : env ∈ m.environments) :
    ∃ own, m.store.heap.Overlay start.globals env own := by
  obtain ⟨chunk, hchunk⟩ := List.mem_iff_getElem?.mp hmem
  exact ⟨_, h.overlay chunk env hchunk⟩

theorem ne_of_ne (h : Overlays start past m) {chunk' env' : Nat}
    (hchunk : m.environments[chunk]? = some env) (hchunk' : m.environments[chunk']? = some env')
    (hne : chunk ≠ chunk') : env ≠ env' ∧ env ≠ env' + 1 := by
  obtain ⟨hlt, rfl⟩ := List.getElem?_eq_some_iff.mp hchunk
  obtain ⟨hlt', rfl⟩ := List.getElem?_eq_some_iff.mp hchunk'
  have hapart := List.pairwise_iff_getElem.mp h.apart
  rcases Nat.lt_or_gt_of_ne hne with hlower | hupper
  · have := hapart chunk chunk' hlt hlt' hlower
    omega
  · have := hapart chunk' chunk hlt' hlt hupper
    omega

theorem lt_of_concerns (h : Overlays start past m) (hroom : start.globals < start.heap.tables.size)
    {r : Nat} (hr : m.Concerns r) : r < m.store.heap.tables.size := by
  obtain rfl | ⟨env, hmem, hr⟩ := hr
  · rw [h.globals]
    exact Nat.lt_of_lt_of_le hroom h.room
  · obtain ⟨own, ho⟩ := h.overlay_of_mem hmem
    obtain rfl | hlinked := hr
    · exact Nat.lt_of_succ_lt ho.room
    · rw [ho.linked] at hlinked
      cases hlinked
      exact ho.room

theorem spared (h : Overlays start past m) {s' : Store} (hs : m.Spared s') {a : Access}
    (ha : ∀ c n v, a ≠ .assign c n v) : Overlays start (a :: past) ⟨s', m.environments⟩ := by
  constructor
  case globals => rw [hs.globals, h.globals]
  case globals_kept => rw [hs.kept _ (.inl h.globals.symm), h.globals_kept]
  case room => exact h.room.trans hs.room
  case newer => exact h.newer
  case apart => exact h.apart
  case known =>
      intro c n v hmem
      cases hmem with
      | head => exact absurd rfl (ha c n v)
      | tail _ hmem => exact h.known c n v hmem
  case overlay =>
      intro chunk env hchunk
      rw [lastAssigned_of_ne ha]
      have ho := h.overlay chunk env hchunk
      have hmem := List.mem_of_getElem? hchunk
      exact ho.of_same hs.room (hs.kept env (.inr ⟨env, hmem, .inl rfl⟩))
        (hs.kept (env + 1) (.inr ⟨env, hmem, .inr ho.linked⟩))

theorem add (h : Overlays start past m) (hnew : ∀ env' ∈ m.environments, env' + 1 < env)
    (hroom : start.heap.tables.size ≤ env)
    (ho : m.store.heap.Overlay start.globals env (selfAlone env)) :
    Overlays start past ⟨m.store, m.environments ++ [env]⟩ := by
  constructor
  case globals => exact h.globals
  case globals_kept => exact h.globals_kept
  case room => exact h.room
  case newer => exact List.forall_mem_append.mpr ⟨h.newer, List.forall_mem_singleton.mpr hroom⟩
  case apart =>
      refine List.pairwise_append.mpr ⟨h.apart, List.pairwise_singleton _ _, ?_⟩
      exact fun env' hmem _ hlast => List.mem_singleton.mp hlast ▸ hnew env' hmem
  case known =>
      intro c n v hmem
      rw [List.length_append]
      exact Nat.lt_add_right 1 (h.known c n v hmem)
  case overlay =>
      intro chunk env' hchunk
      rw [List.getElem?_append] at hchunk
      split at hchunk
      · exact h.overlay chunk env' hchunk
      · next hlast =>
        rw [List.getElem?_singleton] at hchunk
        split at hchunk
        · cases hchunk
          have hunknown : ∀ c n v, .assign c n v ∈ past → c < chunk := fun c n v hmem =>
            Nat.lt_of_lt_of_le (h.known c n v hmem) (Nat.le_of_not_lt hlast)
          rw [lastAssigned_new hunknown]
          exact ho
        · cases hchunk

theorem assigned (h : Overlays start past m) (hroom : start.globals < start.heap.tables.size)
    (hchunk : m.environments[chunk]? = some env) (name : Bytes) (v : Value) :
    Overlays start (.assign chunk name v :: past)
      ⟨{ m.store with heap := m.store.heap.setField env (.string name) v }, m.environments⟩ := by
  have hlater : start.heap.tables.size ≤ env := h.newer env (List.mem_of_getElem? hchunk)
  constructor
  case globals => exact h.globals
  case globals_kept =>
      rw [Heap.table_setField_of_ne _ (by omega), h.globals_kept]
  case room => exact (Heap.size_setField ..).symm ▸ h.room
  case newer => exact h.newer
  case apart => exact h.apart
  case known =>
      intro c n v' hmem
      cases hmem with
      | head => exact (List.getElem?_eq_some_iff.mp hchunk).1
      | tail _ hmem => exact h.known c n v' hmem
  case overlay =>
      intro chunk' env' hchunk'
      have ho := h.overlay chunk' env' hchunk'
      rw [lastAssigned_assign]
      split
      · next heq =>
        subst heq
        cases hchunk.symm.trans hchunk'
        exact ho.setField name v
      · next hne =>
        obtain ⟨hne, hne'⟩ := h.ne_of_ne hchunk hchunk' hne
        exact ho.of_same (Heap.size_setField ..).ge (Heap.table_setField_of_ne _ hne _ _)
          (Heap.table_setField_of_ne _ hne' _ _)

theorem shows (h : Overlays start past m)
    (hplain : (start.heap.table start.globals).metatable = none) (hself : SelfKept past)
    (hchunk : m.environments[chunk]? = some env) {p : Spot} {hops : Nat} {name : Bytes}
    (hsees : p.Sees m.store env (Spot.opening hops name)) :
    p.Shows m.store hops name ((lastAssigned chunk env past name).orElse
      ((start.heap.table start.globals).get (.string name))) := by
  have hglobals : (m.store.heap.table start.globals).metatable = none := by
    rw [h.globals_kept, hplain]
  rw [← h.globals_kept]
  exact hsees.shows (h.overlay chunk env hchunk) hglobals (lastAssigned_self hself chunk env)

theorem happens_assign (h : Overlays start past m) (hchunk : m.environments[chunk]? = some env)
    (name : Bytes) (v : Value) : Happens (.assign chunk name v) m
      ⟨{ m.store with heap := m.store.heap.setField env (.string name) v }, m.environments⟩ :=
  .assign hchunk ((stores_iff (h.overlay chunk env hchunk) name v).mpr rfl)

/-- Whatever happens, environments stay what they are. -/
theorem step (h : Overlays start past m) (hroom : start.globals < start.heap.tables.size)
    (hplain : (start.heap.table start.globals).metatable = none) {a : Access} {m' : Moment}
    (hself : SelfKept past) (ha : Happens a m m') : Overlays start (a :: past) m' := by
  cases ha with
  | @enter s s' envs env hmade =>
    cases hmade
    -- The two new tables come after all that there are, so at first this is work elsewhere.
    have hspared : Moment.Spared ⟨s, envs⟩
        { s with heap := (s.heap.newEnvironment s.globals).2 } := by
      refine ⟨rfl, ?_, fun r hr => ?_⟩
      · rw [Heap.size_newEnvironment]
        exact Nat.le_add_right _ 2
      · have hlt : r < s.heap.tables.size := h.lt_of_concerns hroom hr
        rw [Heap.table_newEnvironment, if_neg (by omega), if_neg (by omega)]
    have hold : Overlays start (.enter :: past) ⟨_, envs⟩ := h.spared hspared fun _ _ _ => nofun
    refine hold.add ?_ h.room ?_
    · intro env' hmem
      obtain ⟨own, ho⟩ := h.overlay_of_mem hmem
      exact ho.room
    · rw [← h.globals]
      exact s.heap.overlay_newEnvironment s.globals
  | @read s s' envs chunk env hops name p v hchunk hsees hreads =>
    obtain ⟨-, rfl⟩ := (h.shows hplain hself hchunk hsees v s').mp hreads
    exact h.spared ⟨rfl, Nat.le_refl _, fun _ _ => rfl⟩ fun _ _ _ => nofun
  | @assign s s' envs chunk env name v hchunk hstores =>
    cases (stores_iff (h.overlay chunk env hchunk) name v).mp hstores
    exact h.assigned hroom hchunk name v
  | other hspared => exact h.spared hspared fun _ _ _ => nofun

end Overlays

/-! ### Stores in which a registry is installed -/

structure Installed (registry : Markup.Registry) (s : Store) : Prop where
  room : s.globals < s.heap.tables.size
  plain : (s.heap.table s.globals).metatable = none
  bound : ∀ i name b, registry.bindings[i]? = some (name, b) →
    (s.heap.table s.globals).get (Value.ofText name) = .hosted i ∧ s.tags[i]? = some (name, b)

private theorem withFields_once {t : Table} (h : Table.StringsOnce t.others)
    (fields : List (String × Value)) : Table.StringsOnce (Library.withFields t fields).others :=
  List.foldlRecOn (motive := fun t : Table => Table.StringsOnce t.others) fields _ h
    fun _ ht _ _ => Table.stringsOnce_set ht _ _

@[simp] private theorem tagsOf_names (registry : Markup.Registry) :
    (Page.tagsOf registry).map Prod.fst = registry.names := by
  unfold Page.tagsOf Markup.Registry.names
  rw [List.map_map]
  conv_rhs => rw [← List.zipIdx_map_fst 0 registry.bindings, List.map_map]
  rfl

theorem installed_ofRegistry {registry : Markup.Registry} (hnames : registry.names.Nodup)
    (files : Files) : Installed registry ((Page.Context.ofRegistry registry).store files) := by
  constructor
  case room => exact Nat.lt_of_lt_of_eq (Nat.zero_lt_succ 6) (Library.heap_size _).symm
  case plain => exact Library.heap_globals_metatable _
  case bound =>
      intro i name b hbinding
      refine ⟨?_, ?_⟩
      · have hmem : (name, Value.hosted i) ∈ Page.tagsOf registry :=
          List.mem_map.mpr ⟨((name, b), i), List.mem_zipIdx_iff_getElem?.mpr hbinding, rfl⟩
        have hnodup : ((Page.tagsOf registry).map Prod.fst).Nodup :=
          (tagsOf_names registry).symm ▸ hnames
        have honce : Table.StringsOnce
            (Library.tableOf Builtin.globals Library.globalTables).others :=
          withFields_once (Table.Built.ofList []).stringsOnce _
        change ((Library.heap (Page.tagsOf registry)).table 0).get (.ofText name) = .hosted i
        rw [Library.heap_table_globals]
        exact Page.Variables.fill_get_of_mem honce hnodup hmem
      · change registry.bindings.toArray[i]? = some (name, b)
        rw [List.getElem?_toArray, hbinding]

theorem overlays_of_history {registry : Markup.Registry} {start : Store}
    (hinstalled : Installed registry start) {past : List Access} {m : Moment}
    (h : History ⟨start, []⟩ past m) (hself : SelfKept past) : Overlays start past m := by
  induction h with
  | start =>
    constructor
    case apart => exact .nil
    all_goals simp
  | @next a past m m' h hnext ih =>
    have hpast := (selfKept_cons.mp hself).2
    exact (ih hpast).step hinstalled.room hinstalled.plain hpast hnext

/-- Environments are private overlays of the globals. Whatever has happened, the globals are as they
were; a name shows, however it is reached, what was last assigned to it in the same environment or
else what the globals hold, so an installed name that is assigned nil shows its binding; and what is
assigned in another environment is not seen. -/
theorem environments_overlay_globals {registry : Markup.Registry} {s : Store}
    (hinstalled : Installed registry s) {past : List Access} {m : Moment}
    (h : History ⟨s, []⟩ past m) (hself : SelfKept past) :
    m.store.globals = s.globals ∧ m.store.heap.table s.globals = s.heap.table s.globals ∧
      (∃ m', Happens .enter m m') ∧
      ∀ chunk env, m.environments[chunk]? = some env →
        (∀ name v, ∃ m', Happens (.assign chunk name v) m m') ∧
        ∀ (p : Spot) hops name, p.Sees m.store env (Spot.opening hops name) →
          p.Targets m.store hops name env ∧
          p.Shows m.store hops name ((lastAssigned chunk env past name).orElse
            ((s.heap.table s.globals).get (.string name))) ∧
          (∀ i text b, registry.bindings[i]? = some (text, b) → name = Bytes.ofText text →
            lastAssigned chunk env past name = .nil → p.Shows m.store hops name (.hosted i)) ∧
          ∀ chunk' name' v' m', chunk' ≠ chunk → name' ≠ selfBytes →
            Happens (.assign chunk' name' v') m m' →
            ∀ v, p.Shows m.store hops name v → p.Shows m'.store hops name v := by
  have hover := overlays_of_history hinstalled h hself
  refine ⟨hover.globals, hover.globals_kept, ⟨_, .enter rfl⟩, fun chunk env hchunk => ?_⟩
  have ho := hover.overlay chunk env hchunk
  constructor
  · exact fun name v => ⟨_, hover.happens_assign hchunk name v⟩
  intro p hops name hsees
  have hshows := hover.shows hinstalled.plain hself hchunk hsees
  refine ⟨?_, hshows, ?_, ?_⟩
  · have hplain : (m.store.heap.table s.globals).metatable = none := by
      rw [hover.globals_kept, hinstalled.plain]
    exact hsees.targets ho hplain (lastAssigned_self hself chunk env)
  · intro i text b hbinding hname hnil
    rw [hnil, hname] at hshows
    have hbound := (hinstalled.bound i text b hbinding).1
    rw [hname]
    exact hbound ▸ hshows
  · intro chunk' name' v' m' hne hname' hnext v hv
    -- The same history with the assignment last, of which `lastAssigned` here sees nothing.
    have hself' : SelfKept (.assign chunk' name' v' :: past) :=
      selfKept_cons.mpr ⟨fun c w heq => hname' (Access.assign.inj heq).2.1.symm, hself⟩
    have hover' := overlays_of_history hinstalled (h.next hnext) hself'
    have hsees' : p.Sees m'.store env (Spot.opening hops name) := by
      cases hnext with
      | @assign s₁ s₂ envs _ env' _ _ hchunk' hstores =>
        cases (stores_iff (hover.overlay chunk' env' hchunk') name' v').mp hstores
        exact ⟨hsees.no_local, hsees.holds⟩
    have henvs : m'.environments = m.environments := by cases hnext; rfl
    have hshows' := hover'.shows hinstalled.plain hself' (henvs ▸ hchunk) hsees'
    rw [lastAssigned_assign, if_neg hne] at hshows'
    exact hv.unique hshows ▸ hshows'

/-! A history, one access after the other. -/

variable {registry : Markup.Registry} {start : Store} {past : List Access} {m : Moment}

theorem History.entered (h : History ⟨start, []⟩ past m) : ∃ m' env,
    History ⟨start, []⟩ (.other :: .enter :: past) m' ∧
      m'.environments = m.environments ++ [env] ∧
      m'.store.heap.cells = m.store.heap.cells.push (.table env) := by
  let env := m.store.heap.tables.size
  let made : Store := { m.store with heap := (m.store.heap.newEnvironment m.store.globals).2 }
  have hmade : History ⟨start, []⟩ (.enter :: past) ⟨made, m.environments ++ [env]⟩ :=
    h.next (.enter rfl)
  have hloaded : History ⟨start, []⟩ (.other :: .enter :: past)
      ⟨made.loaded (.table env) default [], m.environments ++ [env]⟩ :=
    hmade.next (.other ⟨rfl, Nat.le_refl _, fun _ _ => rfl⟩)
  exact ⟨_, env, hloaded, rfl, rfl⟩

theorem History.assigned (h : History ⟨start, []⟩ past m) (hinstalled : Installed registry start)
    (hself : SelfKept past) {chunk env : Nat} (hchunk : m.environments[chunk]? = some env)
    (name : Bytes) (v : Value) : ∃ m', History ⟨start, []⟩ (.assign chunk name v :: past) m' ∧
      m'.environments = m.environments ∧ m'.store.heap.cells = m.store.heap.cells :=
  ⟨_, h.next ((overlays_of_history hinstalled h hself).happens_assign hchunk name v), rfl, rfl⟩

/-- A page assigns a tag's name, then a component that it calls does, and then the page takes its
own binding away: it finds the tag again, and the component what it has assigned. -/
theorem environments_overlay_globals_nested :
    let registry := Markup.Registry.empty.register "Div" false
    let s := (Page.Context.ofRegistry registry).store ⟨[]⟩
    let div := Bytes.ofText "Div"
    let past := [.assign 0 div .nil, .assign 1 div (.boolean false), .other, .enter,
      .assign 0 div (.boolean true), .other, .enter]
    ∃ (m : Moment) (env env' : Nat) (page component : Spot), Installed registry s ∧
      History ⟨s, []⟩ past m ∧ SelfKept past ∧ m.environments = [env, env'] ∧
      page.Sees m.store env (Spot.opening 1 div) ∧ component.Sees m.store env' (Spot.opening 0 div) ∧
      page.Shows m.store 1 div (.hosted 0) ∧ component.Shows m.store 0 div (.boolean false) := by
  intro registry s div past
  have hinstalled : Installed registry s := installed_ofRegistry (by decide) ⟨[]⟩
  have hdiv (c c' : Nat) (v v' : Value) : Access.assign c selfBytes v ≠ .assign c' div v' :=
    fun heq => absurd (Access.assign.inj heq).2.1 (by decide)
  have hself₂ : SelfKept [.other, .enter] := fun c v => by simp
  have hself₅ : SelfKept [.other, .enter, .assign 0 div (.boolean true), .other, .enter] := by
    simp [selfKept_cons, hdiv, hself₂]
  have hself₆ : SelfKept past.tail := selfKept_cons.mpr ⟨fun c v => hdiv c 1 v _, hself₅⟩
  have hself : SelfKept past := selfKept_cons.mpr ⟨fun c v => hdiv c 0 v _, hself₆⟩
  have h₀ : History ⟨s, []⟩ [] ⟨s, []⟩ := .start
  obtain ⟨m₂, env, h₂, henvs₂, hcells₂⟩ := h₀.entered
  have hpage₂ : m₂.environments[0]? = some env := by rw [henvs₂]; rfl
  obtain ⟨m₃, h₃, henvs₃, hcells₃⟩ := h₂.assigned hinstalled hself₂ hpage₂ div (.boolean true)
  obtain ⟨m₅, env', h₅, henvs₅, hcells₅⟩ := h₃.entered
  rw [henvs₃, henvs₂] at henvs₅
  have hcomponent₅ : m₅.environments[1]? = some env' := by rw [henvs₅]; rfl
  obtain ⟨m₆, h₆, henvs₆, hcells₆⟩ := h₅.assigned hinstalled hself₅ hcomponent₅ div (.boolean false)
  rw [henvs₅] at henvs₆
  have hpage₆ : m₆.environments[0]? = some env := by rw [henvs₆]; rfl
  obtain ⟨m₇, h₇, henvs₇, hcells₇⟩ := h₆.assigned hinstalled hself₆ hpage₆ div .nil
  rw [henvs₆] at henvs₇
  rw [hcells₆, hcells₅, hcells₃, hcells₂] at hcells₇
  let scope : Scope := ⟨[(Scope.environment, .plain)], 1, 1, [], [], true, false, 0, 0, 199⟩
  have hpage : Spot.Sees ⟨scope, ⟨[0], [], []⟩, 1⟩ m₇.store env (Spot.opening 1 div) :=
    ⟨rfl, 0, .plain, rfl, hcells₇ ▸ rfl⟩
  have hcomponent : Spot.Sees ⟨scope, ⟨[1], [], []⟩, 1⟩ m₇.store env' (Spot.opening 0 div) :=
    ⟨rfl, 0, .plain, rfl, hcells₇ ▸ rfl⟩
  obtain ⟨-, -, -, hprivate⟩ := environments_overlay_globals hinstalled h₇ hself
  obtain ⟨-, -, hbinding, -⟩ := (hprivate 0 env (henvs₇ ▸ rfl)).2 _ 1 div hpage
  obtain ⟨-, hshows, -, -⟩ := (hprivate 1 env' (henvs₇ ▸ rfl)).2 _ 0 div hcomponent
  exact ⟨m₇, env, env', _, _, hinstalled, h₇, hself, henvs₇, hpage, hcomponent,
    hbinding 0 "Div" _ rfl rfl rfl, hshows⟩

end Pagewright.Script
