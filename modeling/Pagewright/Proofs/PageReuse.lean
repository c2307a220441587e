import Pagewright.Proofs.PoolUse
import Pagewright.Proofs.Responses

/-!
Pages that are asked for one after the other. A pool makes a new context only when the last one has
served its renders, and every page whose script runs counts as one, whatever comes of it.
-/
namespace Pagewright.Server

open Page (Context Job Numbered PageHandler Pool Usage Variables)

structure Visit where
  segments : List String
  files : Files

variable {registry : Markup.Registry} {h : PageHandler} {m n : Nat}

def State.visit (registry : Markup.Registry) (h : PageHandler) (s : State) (v : Visit) : State :=
  (((Service.pages h).call registry v.files v.segments).run s).2

def Visit.script? (h : PageHandler) (v : Visit) : Option (String × Variables) :=
  (Page.pageName? v.segments).bind fun name =>
    match (pageFiles h v.files name).1 with
    | .usable script vars => some (script, vars)
    | _ => none

/-! ### Contexts by their numbers -/

/-- A pool whose contexts are numbered, and in which of them scripts ran. -/
structure Record where
  pool : Pool Numbered
  /-- How many contexts were made. -/
  made : Nat
  /-- The contexts of the scripts that ran, by number, the last one first. -/
  ran : List Nat

namespace Record

def start (m : Nat) : Record := ⟨.new m, 0, []⟩

def run (registry : Markup.Registry) (r : Record) (j : Job) : Record :=
  let (guard, left) := r.pool.get
  let c := guard.context ⟨r.made, .ofRegistry registry⟩
  { pool := left.drop (·.context.renders) (.holding ⟨c.number, (j.render c.context).context⟩)
    made := if guard.held.isSome then r.made else r.made + 1
    ran := c.number :: r.ran }

def visit (registry : Markup.Registry) (h : PageHandler) (r : Record) (v : Visit) : Record :=
  match v.script? h with
  | some (script, vars) => r.run registry ⟨script, some vars, v.files⟩
  | none => r

theorem run_contexts (r : Record) (files : Files) (script : String) (vars : Variables) :
    Usage.contexts (r.run registry ⟨script, some vars, files⟩).pool =
      (pageAnswer registry files (Usage.contexts r.pool) (.usable script vars)).2 := by
  have hcontext : (Page.Guard.mk (r.pool.get.1.held.map (·.context))).context
      (.ofRegistry registry) = (r.pool.get.1.context ⟨r.made, .ofRegistry registry⟩).context :=
    Usage.context_map r.pool.get.1 ⟨r.made, _⟩
  unfold run pageAnswer
  rw [Usage.contexts_get]
  dsimp only
  rw [hcontext, Usage.contexts_drop]
  rfl

theorem visit_contexts (r : Record) (s : State) (v : Visit)
    (hpool : Usage.contexts r.pool = s.pool) :
    Usage.contexts (r.visit registry h v).pool = (s.visit registry h v).pool := by
  unfold State.visit visit Visit.script?
  rw [pages_call_run]
  cases Page.pageName? v.segments with
  | none => exact hpool
  | some name =>
    have hanswer := render_answer registry v.files h name "" s.pool
    have hafter : (h.render registry v.files name s.pool).pool =
        (pageAnswer registry v.files s.pool (pageFiles h v.files name).1).2 :=
      congrArg (·.2.1) hanswer
    dsimp only [Option.bind_some]
    rw [hafter]
    cases (pageFiles h v.files name).1 with
    | missing => exact hpool
    | broken => exact hpool
    | usable script vars =>
      rw [← hpool]
      exact r.run_contexts v.files script vars

end Record

/-! ### Counting -/

@[simp] private theorem put_maxRenders {α : Type} (p : Pool α) (c : α) (renders : Nat) :
    (p.put c renders).maxRenders = p.maxRenders := by
  unfold Pool.put
  split <;> rfl

/-- What is known after so many scripts of a pool whose contexts serve `m` renders. -/
structure Exact (m n : Nat) (r : Record) : Prop where
  maxRenders : r.pool.maxRenders = m
  length : r.ran.length = n
  known : ∀ k ∈ r.ran, k < r.made
  most : ∀ k, r.ran.count k ≤ max 1 m
  /-- All contexts are used up, or the last one waits and has renders left. -/
  waiting : r.pool.idle = [] ∧ n = max 1 m * r.made ∨
    ∃ c, r.pool.idle = [c] ∧ r.made = c.number + 1 ∧ 0 < c.context.renders ∧ c.context.renders < m ∧
      n = m * c.number + c.context.renders ∧ r.ran.count c.number = c.context.renders

namespace Exact

variable {r : Record}

theorem start (m : Nat) : Exact m 0 (.start m) where
  maxRenders := rfl
  length := rfl
  known := by simp [Record.start]
  most := by simp [Record.start]
  waiting := .inl ⟨rfl, rfl⟩

theorem count_new (hr : Exact m n r) : r.ran.count r.made = 0 :=
  List.count_eq_zero_of_not_mem fun hmem => Nat.lt_irrefl _ (hr.known _ hmem)

theorem most_cons (hr : Exact m n r) {k : Nat} (hk : r.ran.count k < max 1 m) :
    ∀ k', (k :: r.ran).count k' ≤ max 1 m := by
  intro k'
  rw [List.count_cons]
  by_cases heq : k = k'
  · subst heq
    rw [beq_self_eq_true, if_pos rfl]
    exact hk
  · simpa [heq] using hr.most k'

/-- A context that has served a render is given back. It waits if it may serve more, and is used up
if not. -/
theorem of_put {pool : Pool Numbered} {ran : List Nat} {c : Numbered}
    (hmax : pool.maxRenders = m) (hidle : pool.idle = []) (hlength : ran.length = n)
    (hknown : ∀ k ∈ ran, k < c.number + 1) (hmost : ∀ k, ran.count k ≤ max 1 m)
    (hpos : 0 < c.context.renders) (hn : n = max 1 m * c.number + c.context.renders)
    (hcount : ran.count c.number = c.context.renders) :
    Exact m n ⟨pool.put c c.context.renders, c.number + 1, ran⟩ where
  maxRenders := (put_maxRenders ..).trans hmax
  length := hlength
  known := hknown
  most := hmost
  waiting := by
    unfold Pool.put
    rw [hmax, hidle]
    by_cases hmore : c.context.renders < m
    · rw [if_pos hmore]
      rw [Nat.max_eq_right (by omega)] at hn
      exact .inr ⟨c, rfl, rfl, hpos, hmore, hn, hcount⟩
    · have hfull : c.context.renders = max 1 m := by
        have := hmost c.number
        omega
      rw [if_neg hmore, hn, hfull, ← Nat.mul_succ]
      exact .inl ⟨hidle, rfl⟩

theorem run_new (hr : Exact m n r) (hidle : r.pool.idle = []) (hn : n = max 1 m * r.made)
    (j : Job) : Exact m (n + 1) (r.run registry j) := by
  let c : Numbered := ⟨r.made, (j.render (.ofRegistry registry)).context⟩
  have hrenders : c.context.renders = 1 := j.render_renders _
  have hget : r.pool.get = (⟨none⟩, r.pool) := by
    rcases Usage.get_cases r.pool with ⟨-, hget⟩ | ⟨c, rest, hcons, -⟩
    · exact hget
    · exact absurd (hidle.symm.trans hcons) (List.cons_ne_nil c rest).symm
  have hrun : r.run registry j =
      ⟨r.pool.put c c.context.renders, c.number + 1, c.number :: r.ran⟩ := by
    unfold Record.run
    rw [hget]
    rfl
  have hnone : r.ran.count c.number = 0 := hr.count_new
  rw [hrun]
  refine of_put hr.maxRenders hidle (congrArg Nat.succ hr.length) ?_ (hr.most_cons (by omega))
    ?_ ?_ ?_
  · refine List.forall_mem_cons.mpr ⟨Nat.lt_succ_self _, fun k hk => ?_⟩
    exact Nat.lt_succ_of_lt (hr.known k hk)
  · rw [hrenders]
    exact Nat.zero_lt_one
  · rw [hrenders, hn]
  · rw [List.count_cons_self, hnone, hrenders]

theorem run_waiting (hr : Exact m n r) {c : Numbered} (hidle : r.pool.idle = [c])
    (hmade : r.made = c.number + 1) (hleft : c.context.renders < m)
    (hn : n = m * c.number + c.context.renders)
    (hcount : r.ran.count c.number = c.context.renders) (j : Job) :
    Exact m (n + 1) (r.run registry j) := by
  let used : Numbered := ⟨c.number, (j.render c.context).context⟩
  have hrenders : used.context.renders = c.context.renders + 1 := j.render_renders _
  have hget : r.pool.get = (.holding c, { r.pool with idle := [] }) := by
    rcases Usage.get_cases r.pool with ⟨hnone, -⟩ | ⟨c', rest, hcons, hget⟩
    · rw [hr.maxRenders, hidle] at hnone
      exact absurd (hnone.resolve_right (List.cons_ne_nil c [])) (by omega)
    · cases hidle.symm.trans hcons
      exact hget
  have hrun : r.run registry j =
      ⟨{ r.pool with idle := [] }.put used used.context.renders, r.made, used.number :: r.ran⟩ := by
    unfold Record.run
    rw [hget]
    rfl
  have hold : r.ran.count used.number = c.context.renders := hcount
  rw [hrun, hmade]
  refine of_put hr.maxRenders rfl (congrArg Nat.succ hr.length) ?_ (hr.most_cons (by omega))
    ?_ ?_ ?_
  · exact List.forall_mem_cons.mpr ⟨Nat.lt_succ_self _, hmade ▸ hr.known⟩
  · rw [hrenders]
    exact Nat.succ_pos _
  · rw [hrenders, Nat.max_eq_right (by omega), hn, Nat.add_assoc]
  · rw [List.count_cons_self, hold, hrenders]

theorem run (hr : Exact m n r) (j : Job) : Exact m (n + 1) (r.run registry j) := by
  obtain ⟨hidle, hn⟩ | ⟨c, hidle, hmade, -, hleft, hn, hcount⟩ := hr.waiting
  · exact hr.run_new hidle hn j
  · exact hr.run_waiting hidle hmade hleft hn hcount j

theorem made_eq (hr : Exact m n r) : r.made = if m = 0 then n else (n + m - 1) / m := by
  obtain ⟨-, hn⟩ | ⟨c, -, hmade, hpos, hleft, hn, -⟩ := hr.waiting
  · rcases Nat.eq_zero_or_pos m with rfl | hm
    · rw [if_pos rfl, hn, Nat.max_eq_left (Nat.zero_le 1), Nat.one_mul]
    · rw [if_neg hm.ne', hn, Nat.max_eq_right hm, Nat.add_sub_assoc hm, Nat.mul_add_div hm,
        Nat.div_eq_of_lt (Nat.sub_lt hm Nat.zero_lt_one), Nat.add_zero]
  · have hm : 0 < m := hpos.trans hleft
    -- The last context counts as a whole one, as it has served a render and has some left.
    have hround : n + m - 1 = m * (c.number + 1) + (c.context.renders - 1) := by
      rw [hn, Nat.mul_succ]
      omega
    rw [if_neg hm.ne', hround, Nat.mul_add_div hm, Nat.div_eq_of_lt (by omega), hmade,
      Nat.add_zero]

theorem idle_length (hr : Exact m n r) :
    r.pool.idle.length = if 0 < m ∧ ¬m ∣ n then 1 else 0 := by
  obtain ⟨hidle, hn⟩ | ⟨c, hidle, -, hpos, hleft, hn, -⟩ := hr.waiting
  · have hwhole : ¬(0 < m ∧ ¬m ∣ n) := by
      rintro ⟨hm, hpart⟩
      rw [Nat.max_eq_right hm] at hn
      exact hpart ⟨r.made, hn⟩
    rw [if_neg hwhole, hidle, List.length_nil]
  · have hpart : ¬m ∣ n := by
      rw [hn, Nat.dvd_add_right (Nat.dvd_mul_right m c.number)]
      exact Nat.not_dvd_of_pos_of_lt hpos hleft
    rw [if_pos ⟨hpos.trans hleft, hpart⟩, hidle, List.length_singleton]

end Exact

theorem Exact.visit {r : Record} (hr : Exact m n r) (v : Visit) :
    Exact m (n + if (v.script? h).isSome then 1 else 0) (r.visit registry h v) := by
  unfold Record.visit
  cases v.script? h with
  | none => exact hr
  | some source => exact hr.run _

theorem Exact.visits (visits : List Visit) {r : Record} {s : State} (hr : Exact m n r)
    (hpool : Usage.contexts r.pool = s.pool) :
    let s' := visits.foldl (State.visit registry h) s
    let r' := visits.foldl (Record.visit registry h) r
    Exact m (n + visits.countP fun v => (v.script? h).isSome) r' ∧
      Usage.contexts r'.pool = s'.pool := by
  induction visits generalizing n r s with
  | nil => exact ⟨hr, hpool⟩
  | cons v rest ih =>
      have hvisit : Usage.contexts (r.visit registry h v).pool = (s.visit registry h v).pool :=
        r.visit_contexts s v hpool
      rw [List.countP_cons, Nat.add_comm (rest.countP _), ← Nat.add_assoc]
      exact ih (hr.visit v) hvisit

/-- After any visits, one after the other, as many contexts were made as are needed for the scripts
that ran, none of them ran more than it may, and one waits exactly if it has renders left. -/
theorem sequential_reuse_exact (registry : Markup.Registry) (h : PageHandler) (m : Nat)
    (visits : List Visit) :
    let s := visits.foldl (State.visit registry h) (.ofPool (.new m))
    let r := visits.foldl (Record.visit registry h) (.start m)
    let n := visits.countP fun v => (v.script? h).isSome
    Usage.contexts r.pool = s.pool ∧ r.ran.length = n ∧ (∀ k ∈ r.ran, k < r.made) ∧
      r.made = (if m = 0 then n else (n + m - 1) / m) ∧
      (∀ k, r.ran.count k ≤ max 1 m) ∧
      s.pool.idle.length = if 0 < m ∧ ¬m ∣ n then 1 else 0 := by
  intro s r n
  obtain ⟨hr, hpool⟩ : Exact m (0 + n) r ∧ Usage.contexts r.pool = s.pool :=
    (Exact.start m).visits visits rfl
  rw [Nat.zero_add] at hr
  have hidle : s.pool.idle.length = r.pool.idle.length := by
    rw [← hpool]
    exact List.length_map _
  exact ⟨hpool, hr.length, hr.known, hr.made_eq, hr.most, hidle.trans hr.idle_length⟩

end Pagewright.Server
