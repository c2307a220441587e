import Pagewright.Proofs.BoundVariables
import Pagewright.Proofs.ComponentNames
import Pagewright.Proofs.ComponentOutcomes
import Pagewright.Proofs.RenderIsolation

/-!
How a render ends. A script is no script, raises an error or has a value; a function may be called, which
raises an error or has a value too. Each of these is a page or one fault, and every render is counted.
-/
namespace Pagewright

namespace Script

variable {source : Bytes} {f : Function} {s : Store}

/-- The function that a source is, as an expression or else as statements. What begins like a compiled
chunk is not read as an expression. -/
def Chunk.read? (source : Bytes) (deepest : Nat) : Option Function :=
  let statements := (compile source deepest).toOption
  if source.take 4 = 0x1b :: Bytes.ofText "Lua" then statements
  else (compile (Bytes.ofText "return " ++ source) deepest).toOption.or statements

theorem Chunk.load_of_toOption_none
    (h : (compile source (deepestNesting - s.depth.library)).toOption = none) (name : Bytes)
    (env : Value) : ∃ message, load source name env s = .ok (.error message) s := by
  cases hcompile : compile source (deepestNesting - s.depth.library) with
  | error e => exact ⟨_, load_error hcompile name env⟩
  | ok f =>
    rw [hcompile] at h
    cases h

theorem Chunk.load_of_toOption_some
    (h : (compile source (deepestNesting - s.depth.library)).toOption = some f) (name : Bytes)
    (env : Value) :
    load source name env s =
      .ok (.ok (.closure s.heap.closures.size)) (s.loaded env f (displayName name)) := by
  cases hcompile : compile source (deepestNesting - s.depth.library) with
  | error e =>
    rw [hcompile] at h
    cases h
  | ok f' =>
    rw [hcompile] at h
    obtain rfl := Option.some.inj h
    exact load_eq hcompile name env

theorem Chunk.loadValue_of_read (h : read? source (deepestNesting - s.depth.library) = some f)
    (name : Bytes) (env : Value) :
    loadValue source name env s =
      .ok (.ok (.closure s.heap.closures.size)) (s.loaded env f (displayName name)) := by
  unfold read? at h
  unfold loadValue
  split at h
  · next hbinary => rw [if_pos hbinary, load_of_toOption_some h]
  · next htext =>
    rw [if_neg htext, eval_bind]
    cases hreturn : (compile (Bytes.ofText "return " ++ source)
        (deepestNesting - s.depth.library)).toOption with
    | some f' =>
      rw [hreturn] at h
      obtain rfl := Option.some.inj h
      rw [load_of_toOption_some hreturn]
      rfl
    | none =>
      rw [hreturn] at h
      obtain ⟨message, hload⟩ := load_of_toOption_none hreturn name env
      rw [hload]
      exact load_of_toOption_some h name env

theorem Chunk.loadValue_of_unread (h : read? source (deepestNesting - s.depth.library) = none)
    (name : Bytes) (env : Value) :
    ∃ message, loadValue source name env s = .ok (.error message) s := by
  unfold read? at h
  unfold loadValue
  split at h
  · next hbinary =>
    rw [if_pos hbinary]
    exact load_of_toOption_none h name env
  · next htext =>
    obtain ⟨hreturn, hstatements⟩ := Option.or_eq_none_iff.mp h
    obtain ⟨message, hload⟩ := load_of_toOption_none hreturn name env
    rw [if_neg htext, eval_bind, hload]
    exact load_of_toOption_none hstatements name env

end Script

namespace Page

open Script
open Markup (valueText?)
open Markup.Component (Calls)

/-! ### The outcomes -/

def textless : List String := ["nil", "table", "userdata", "thread"]

@[simp] theorem valueText?_eq_none_iff (v : Value) :
    valueText? v = none ↔ v.typeName = "function" ∨ v.typeName ∈ textless := by
  cases v <;> simp [valueText?, Value.typeName, textless]

theorem isFunction_iff (v : Value) : v.isFunction = true ↔ v.typeName = "function" := by
  cases v <;> simp [Value.isFunction, Value.typeName]

private theorem typeName_ne_function_of_textless {v : Value} (h : v.typeName ∈ textless) :
    v.typeName ≠ "function" := by
  intro hfunction
  rw [hfunction] at h
  exact absurd h (by decide)

namespace Context

variable {c : Context} {files : Files} {script : String} {vars : Variables}

inductive Runs (c : Context) (files : Files) (script : String) : Option Value → Store → Prop
  | unread : Chunk.read? (Bytes.ofText script) Chunk.deepestNesting = none →
      Runs c files script none (entered (c.store files))
  | called {f : Script.Function} {o : Option Value} {s : Store} :
      Chunk.read? (Bytes.ofText script) Chunk.deepestNesting = some f →
        Calls callValue (.closure c.heap.closures.size) []
          ((entered (c.store files)).loaded (.table c.heap.tables.size) f
            (Chunk.displayName chunkName)) o s →
          Runs c files script o s

def Fills (vars : Variables) (f : Value) (s : Store) (o : Option Value) (s' : Store) : Prop :=
  ∃ table bound, vars.bind s = .ok table bound ∧ Calls callValue f [table] bound o s'

/-- The ends of a page that is the value of a script. -/
inductive PageEnds (c : Context) (files : Files) (script : String) :
    Except RenderFault String → Prop
  | failed {s : Store} : Runs c files script none s → PageEnds c files script (.error .execution)
  | function {v : Value} {s : Store} : Runs c files script (some v) s → v.typeName = "function" →
      PageEnds c files script (.error .functionForPage)
  | empty {v : Value} {s : Store} : Runs c files script (some v) s → v.typeName ∈ textless →
      PageEnds c files script (.error .emptyOutput)
  | page {v : Value} {s : Store} {html : String} : Runs c files script (some v) s →
      valueText? v = some html → PageEnds c files script (.ok html)

/-- The ends of a page that the function of a script gives for some variables. -/
inductive FilledEnds (c : Context) (files : Files) (script : String) (vars : Variables) :
    Except RenderFault String → Prop
  | failed {s : Store} : Runs c files script none s →
      FilledEnds c files script vars (.error .execution)
  | noFunction {v : Value} {s : Store} : Runs c files script (some v) s →
      v.typeName ≠ "function" → FilledEnds c files script vars (.error .noFunction)
  | raised {f : Value} {s s' : Store} : Runs c files script (some f) s →
      f.typeName = "function" → Fills vars f s none s' →
        FilledEnds c files script vars (.error .call)
  | empty {f v : Value} {s s' : Store} : Runs c files script (some f) s →
      f.typeName = "function" → Fills vars f s (some v) s' →
        v.typeName = "function" ∨ v.typeName ∈ textless →
          FilledEnds c files script vars (.error .emptyOutput)
  | page {f v : Value} {s s' : Store} {html : String} : Runs c files script (some f) s →
      f.typeName = "function" → Fills vars f s (some v) s' → valueText? v = some html →
        FilledEnds c files script vars (.ok html)

theorem PageEnds.ne_unfinished {r : Except RenderFault String} (h : c.PageEnds files script r) :
    r ≠ .error .unfinished := by
  cases h <;> nofun

theorem FilledEnds.ne_unfinished {r : Except RenderFault String}
    (h : c.FilledEnds files script vars r) : r ≠ .error .unfinished := by
  cases h <;> nofun

/-! ### The steps -/

section Steps

variable {α β : Type} {s s' : Store} {r : Except RenderFault β}

theorem run_bind_eq_ok_iff {e : ExceptT RenderFault Eval α} {g : α → ExceptT RenderFault Eval β} :
    (e >>= g).run s = .ok r s' ↔
      (∃ a t, e.run s = .ok (.ok a) t ∧ (g a).run t = .ok r s') ∨
        ∃ fault, e.run s = .ok (.error fault) s' ∧ r = .error fault := by
  rw [ExceptT.run_bind, Script.bind_eq_ok_iff]
  constructor
  · rintro ⟨a | a, t, he, hg⟩
    · cases hg
      exact .inr ⟨a, he, rfl⟩
    · exact .inl ⟨a, t, he, hg⟩
  · rintro (⟨a, t, he, hg⟩ | ⟨fault, he, rfl⟩)
    · exact ⟨.ok a, t, he, hg⟩
    · exact ⟨.error fault, s', he, rfl⟩

def valueOr (fault : RenderFault) : Option Value → Except RenderFault Value
  | some v => .ok v
  | none => .error fault

private theorem run_guarded_eq (fault : RenderFault) (e : Eval α) (s : Store) :
    (guarded fault e).run s = match e s with
      | .ok a s' => .ok (.ok a) s'
      | .error .exhausted s' => .error .exhausted s'
      | .error _ s' => .ok (.error fault) s' := by
  unfold guarded
  change tryCatch (Except.ok <$> e) _ s = _
  cases he : e s with
  | ok a s' => exact Script.tryCatch_ok he _ _
  | error stop s' =>
    rw [Script.tryCatch_error he]
    cases stop <;> rfl

def guardedCall (fault : RenderFault) (f : Value) (args : List Value) :
    ExceptT RenderFault Eval Value := do
  return (← guarded fault (callValue f args)).headD .nil

theorem run_guardedCall_eq_ok_iff {fault : RenderFault} {f : Value} {args : List Value}
    {r : Except RenderFault Value} : (guardedCall fault f args).run s = .ok r s' ↔
      ∃ o, Calls callValue f args s o s' ∧ r = valueOr fault o := by
  unfold guardedCall
  rw [run_bind_eq_ok_iff, run_guarded_eq]
  constructor
  · intro h
    cases hcall : callValue f args s with
    | ok vs t =>
      rw [hcall] at h
      obtain ⟨vs', t', hvs, hr⟩ | ⟨fault', hvs, -⟩ := h
      · cases hvs
        cases hr
        exact ⟨some _, .returned hcall, rfl⟩
      · cases hvs
    | error stop t =>
      rw [hcall] at h
      cases stop with
      | exhausted => obtain ⟨_, _, hvs, -⟩ | ⟨_, hvs, -⟩ := h <;> cases hvs
      | _ =>
        obtain ⟨_, _, hvs, -⟩ | ⟨_, hvs, rfl⟩ := h
        · cases hvs
        · cases hvs
          exact ⟨none, .raised Stop.noConfusion hcall, rfl⟩
  · rintro ⟨o, hcalls, rfl⟩
    cases hcalls with
    | returned hcall =>
      rw [hcall]
      exact .inl ⟨_, _, rfl, rfl⟩
    | @raised stop _ hstop hcall =>
      rw [hcall]
      cases stop with
      | exhausted => exact absurd rfl hstop
      | _ => exact .inr ⟨fault, rfl, rfl⟩

end Steps

theorem evaluate_eq_ok_iff {r : Except RenderFault Value} {s : Store} :
    (evaluate callValue script).run (c.store files) = .ok r s ↔
      ∃ o, c.Runs files script o s ∧ r = valueOr .execution o := by
  have hmade : Chunk.newEnvironment (c.store files) =
      .ok (.table c.heap.tables.size) (entered (c.store files)) := rfl
  cases hread : Chunk.read? (Bytes.ofText script) Chunk.deepestNesting with
  | none =>
    obtain ⟨message, hload⟩ := Chunk.loadValue_of_unread (s := entered (c.store files)) hread
      chunkName (.table c.heap.tables.size)
    rw [evaluate_of_error hload]
    constructor
    · intro h
      cases h
      exact ⟨none, .unread hread, rfl⟩
    · rintro ⟨o, hruns, rfl⟩
      cases hruns with
      | unread _ => rfl
      | called hsome _ => cases hread.symm.trans hsome
  | some f =>
    have hload := Chunk.loadValue_of_read (s := entered (c.store files)) hread chunkName
      (.table c.heap.tables.size)
    have hcalled : (evaluate callValue script).run (c.store files) =
        (guardedCall .execution (.closure c.heap.closures.size) []).run
          ((entered (c.store files)).loaded (.table c.heap.tables.size) f
            (Chunk.displayName chunkName)) := by
      unfold evaluate
      exact (run_bind_of_ok (run_liftM hmade)).trans (run_bind_of_ok (run_liftM hload))
    rw [hcalled, run_guardedCall_eq_ok_iff]
    constructor
    · rintro ⟨o, hcalls, rfl⟩
      exact ⟨o, .called hread hcalls, rfl⟩
    · rintro ⟨o, hruns, rfl⟩
      cases hruns with
      | unread hnone => cases hread.symm.trans hnone
      | called hsome hcalls =>
        obtain rfl := Option.some.inj (hread.symm.trans hsome)
        exact ⟨o, hcalls, rfl⟩

/-! ### The pages -/

theorem page_eq_ok {v : Value} {s : Store}
    (h : (evaluate callValue script).run (c.store files) = .ok (.ok v) s) :
    (page callValue script).run (c.store files) =
      .ok (if v.isFunction then .error .functionForPage else pageText v) s := by
  unfold page
  rw [run_bind_of_ok h]
  split <;> rfl

private theorem exists_page_eq_ok_iff {r : Except RenderFault String} :
    (∃ s, (page callValue script).run (c.store files) = .ok r s) ↔ c.PageEnds files script r := by
  constructor
  · rintro ⟨s, hpage⟩
    obtain ⟨v, t, hevaluate, -⟩ | ⟨fault, hevaluate, rfl⟩ := run_bind_eq_ok_iff.mp hpage
    · obtain ⟨_ | v, hruns, hv⟩ := evaluate_eq_ok_iff.mp hevaluate <;> cases hv
      cases (page_eq_ok hevaluate).symm.trans hpage
      split
      · next hfunction => exact .function hruns ((isFunction_iff v).mp hfunction)
      · next hfunction =>
        unfold pageText
        cases htext : valueText? v with
        | some html => exact .page hruns htext
        | none =>
          refine .empty hruns (((valueText?_eq_none_iff v).mp htext).resolve_left fun hname => ?_)
          exact hfunction ((isFunction_iff v).mpr hname)
    · obtain ⟨_ | v, hruns, hv⟩ := evaluate_eq_ok_iff.mp hevaluate <;> cases hv
      exact .failed hruns
  · have hvalue {v : Value} {s : Store} (hruns : c.Runs files script (some v) s) :
        (evaluate callValue script).run (c.store files) = .ok (.ok v) s :=
      evaluate_eq_ok_iff.mpr ⟨_, hruns, rfl⟩
    intro h
    cases h with
    | @failed s hruns =>
      have hevaluate : (evaluate callValue script).run (c.store files) = .ok (.error .execution) s :=
        evaluate_eq_ok_iff.mpr ⟨_, hruns, rfl⟩
      exact ⟨s, run_bind_eq_ok_iff.mpr (.inr ⟨_, hevaluate, rfl⟩)⟩
    | @function v s hruns hname =>
      exact ⟨s, by rw [page_eq_ok (hvalue hruns), if_pos ((isFunction_iff v).mpr hname)]⟩
    | @empty v s hruns hname =>
      have hfunction : ¬v.isFunction = true :=
        fun h => typeName_ne_function_of_textless hname ((isFunction_iff v).mp h)
      have htext : valueText? v = none := (valueText?_eq_none_iff v).mpr (.inr hname)
      exact ⟨s, by rw [page_eq_ok (hvalue hruns), if_neg hfunction, pageText, htext]⟩
    | @page v s html hruns htext =>
      have hfunction : ¬v.isFunction = true := by
        intro h
        have hnone := (valueText?_eq_none_iff v).mpr (.inl ((isFunction_iff v).mp h))
        cases htext.symm.trans hnone
      exact ⟨s, by rw [page_eq_ok (hvalue hruns), if_neg hfunction, pageText, htext]⟩

def fill (vars : Variables) (f : Value) : ExceptT RenderFault Eval String :=
  if !f.isFunction then throw .noFunction
  else do
    let table ← liftM (m := Eval) vars.bind
    let v ← guardedCall .call f [table]
    page.liftExcept (pageText v)

private theorem pageFor_eq (script : String) (vars : Variables) :
    pageFor callValue script vars = evaluate callValue script >>= fill vars := by
  unfold pageFor
  congr 1
  funext f
  simp only [fill, guardedCall, bind_assoc, pure_bind]

theorem fill_of_ne {f : Value} (h : f.typeName ≠ "function") (s : Store) :
    (fill vars f).run s = .ok (.error .noFunction) s := by
  have hfunction : (!f.isFunction) = true := by
    cases hf : f.isFunction with
    | false => rfl
    | true => exact absurd ((isFunction_iff f).mp hf) h
  unfold fill
  rw [if_pos hfunction]
  rfl

theorem fill_eq_ok_iff {f : Value} (h : f.typeName = "function") {s s' : Store}
    {r : Except RenderFault String} : (fill vars f).run s = .ok r s' ↔
      ∃ o, Fills vars f s o s' ∧ r = valueOr .call o >>= pageText := by
  have hfunction : ¬(!f.isFunction) = true := by
    rw [(isFunction_iff f).mpr h]
    exact Bool.false_ne_true
  obtain ⟨bound, hbind, -⟩ := vars.bind_eq s
  unfold fill
  rw [if_neg hfunction, run_bind_of_ok (run_liftM hbind), run_bind_eq_ok_iff]
  constructor
  · rintro (⟨v, t, hcall, hrest⟩ | ⟨fault, hcall, rfl⟩)
    · obtain ⟨_ | v, hcalls, hv⟩ := run_guardedCall_eq_ok_iff.mp hcall <;> cases hv
      cases hrest
      exact ⟨some v, ⟨_, _, hbind, hcalls⟩, rfl⟩
    · obtain ⟨_ | v, hcalls, hv⟩ := run_guardedCall_eq_ok_iff.mp hcall <;> cases hv
      exact ⟨none, ⟨_, _, hbind, hcalls⟩, rfl⟩
  · rintro ⟨o, ⟨table, bound', hbind', hcalls⟩, rfl⟩
    cases hbind.symm.trans hbind'
    have hcall : (guardedCall .call f [.table s.heap.tables.size]).run bound =
        .ok (valueOr .call o) s' := run_guardedCall_eq_ok_iff.mpr ⟨o, hcalls, rfl⟩
    cases o with
    | some v => exact .inl ⟨v, s', hcall, rfl⟩
    | none => exact .inr ⟨.call, hcall, rfl⟩

private theorem exists_pageFor_eq_ok_iff {r : Except RenderFault String} :
    (∃ s, (pageFor callValue script vars).run (c.store files) = .ok r s) ↔
      c.FilledEnds files script vars r := by
  rw [pageFor_eq]
  constructor
  · rintro ⟨s, hpage⟩
    obtain ⟨f, t, hevaluate, hfill⟩ | ⟨fault, hevaluate, rfl⟩ := run_bind_eq_ok_iff.mp hpage
    · obtain ⟨_ | f, hruns, hf⟩ := evaluate_eq_ok_iff.mp hevaluate <;> cases hf
      by_cases hname : f.typeName = "function"
      · obtain ⟨_ | v, hfills, rfl⟩ := (fill_eq_ok_iff hname).mp hfill
        · exact .raised hruns hname hfills
        · change c.FilledEnds files script vars (pageText v)
          unfold pageText
          cases htext : valueText? v with
          | some html => exact .page hruns hname hfills htext
          | none => exact .empty hruns hname hfills ((valueText?_eq_none_iff v).mp htext)
      · cases (fill_of_ne hname t).symm.trans hfill
        exact .noFunction hruns hname
    · obtain ⟨_ | f, hruns, hf⟩ := evaluate_eq_ok_iff.mp hevaluate <;> cases hf
      exact .failed hruns
  · have hafter {f : Value} {s s' : Store} {r : Except RenderFault String}
        (hruns : c.Runs files script (some f) s) (hfill : (fill vars f).run s = .ok r s') :
        ∃ s, (evaluate callValue script >>= fill vars).run (c.store files) = .ok r s :=
      ⟨s', run_bind_eq_ok_iff.mpr (.inl ⟨f, s, evaluate_eq_ok_iff.mpr ⟨_, hruns, rfl⟩, hfill⟩)⟩
    intro h
    cases h with
    | @failed s hruns =>
      have hevaluate : (evaluate callValue script).run (c.store files) = .ok (.error .execution) s :=
        evaluate_eq_ok_iff.mpr ⟨_, hruns, rfl⟩
      exact ⟨s, run_bind_eq_ok_iff.mpr (.inr ⟨_, hevaluate, rfl⟩)⟩
    | @noFunction f s hruns hname => exact hafter hruns (fill_of_ne hname s)
    | raised hruns hname hfills =>
      exact hafter hruns ((fill_eq_ok_iff hname).mpr ⟨none, hfills, rfl⟩)
    | @empty f v s s' hruns hname hfills hkind =>
      have htext : valueText? v = none := (valueText?_eq_none_iff v).mpr hkind
      refine hafter hruns ((fill_eq_ok_iff hname).mpr ⟨some v, hfills, ?_⟩)
      change _ = pageText v
      rw [pageText, htext]
    | @page f v s s' html hruns hname hfills htext =>
      refine hafter hruns ((fill_eq_ok_iff hname).mpr ⟨some v, hfills, ?_⟩)
      change _ = pageText v
      rw [pageText, htext]

/-! ### The renders -/

@[simp] theorem renderWith_renders (e : ExceptT RenderFault Eval String) :
    (c.renderWith files e).context.renders = c.renders + 1 := by
  rw [renderWith_context]

theorem renderWith_result_iff {e : ExceptT RenderFault Eval String}
    {ends : Except RenderFault String → Prop}
    (hends : ∀ r, (∃ s, e.run (c.store files) = .ok r s) ↔ ends r)
    (hfinished : ∀ r, ends r → r ≠ .error .unfinished) (r : Except RenderFault String) :
    ends r ↔ (c.renderWith files e).result = r ∧ r ≠ .error .unfinished := by
  unfold renderWith perform
  cases hrun : e.run (c.store files) with
  | ok r' s =>
    constructor
    · intro h
      obtain ⟨s', hr⟩ := (hends r).mpr h
      cases hrun.symm.trans hr
      exact ⟨rfl, hfinished r h⟩
    · rintro ⟨rfl, -⟩
      exact (hends r').mp ⟨s, hrun⟩
  | error stop s =>
    constructor
    · intro h
      obtain ⟨s', hr⟩ := (hends r).mpr h
      cases hrun.symm.trans hr
    · rintro ⟨rfl, hne⟩
      exact absurd rfl hne

theorem PageEnds.of_runs {o : Option Value} {s : Store} (h : c.Runs files script o s) :
    ∃ r, c.PageEnds files script r := by
  cases o with
  | none => exact ⟨_, .failed h⟩
  | some v =>
    cases htext : valueText? v with
    | some html => exact ⟨_, .page h htext⟩
    | none =>
      obtain hname | hname := (valueText?_eq_none_iff v).mp htext
      · exact ⟨_, .function h hname⟩
      · exact ⟨_, .empty h hname⟩

theorem FilledEnds.of_runs {o : Option Value} {s : Store} (h : c.Runs files script o s)
    (hfills : ∀ f, o = some f → f.typeName = "function" → ∃ o' s', Fills vars f s o' s') :
    ∃ r, c.FilledEnds files script vars r := by
  cases o with
  | none => exact ⟨_, .failed h⟩
  | some f =>
    by_cases hname : f.typeName = "function"
    · obtain ⟨o', s', hcalled⟩ := hfills f rfl hname
      cases o' with
      | none => exact ⟨_, .raised h hname hcalled⟩
      | some v =>
        cases htext : valueText? v with
        | some html => exact ⟨_, .page h hname hcalled htext⟩
        | none => exact ⟨_, .empty h hname hcalled ((valueText?_eq_none_iff v).mp htext)⟩
    · exact ⟨_, .noFunction h hname⟩

/-- Every render is classified. Whatever running a script comes to, and calling the function that is its
value, there is one end for it and the render gives this one; it is a failure of the script if the script
is none or raises an error, there or in the call, and only then. Every render is counted. -/
theorem render_classified (c : Context) (files : Files) (script : String) (vars : Variables) :
    let page := c.render files script
    let filled := c.renderVariables files script vars
    (∀ r, c.PageEnds files script r ↔ page.result = r ∧ r ≠ .error .unfinished) ∧
    (∀ o s, c.Runs files script o s → ∃! r, c.PageEnds files script r) ∧
    (∀ r, c.FilledEnds files script vars r ↔ filled.result = r ∧ r ≠ .error .unfinished) ∧
    (∀ o s, c.Runs files script o s →
      (∀ f, o = some f → f.typeName = "function" → ∃ o' s', Fills vars f s o' s') →
        ∃! r, c.FilledEnds files script vars r) ∧
    ((∃ fault, page.result = .error fault ∧ fault.isScriptFailure = true) ↔
      ∃ s, c.Runs files script none s) ∧
    ((∃ fault, filled.result = .error fault ∧ fault.isScriptFailure = true) ↔
      (∃ s, c.Runs files script none s) ∨
        ∃ f s s', c.Runs files script (some f) s ∧ f.typeName = "function" ∧
          Fills vars f s none s') ∧
    page.context.renders = c.renders + 1 ∧ filled.context.renders = c.renders + 1 := by
  intro page filled
  have hpage : ∀ r, c.PageEnds files script r ↔ page.result = r ∧ r ≠ .error .unfinished :=
    renderWith_result_iff (fun _ => exists_page_eq_ok_iff) fun _ h => h.ne_unfinished
  have hfilled : ∀ r, c.FilledEnds files script vars r ↔
      filled.result = r ∧ r ≠ .error .unfinished :=
    renderWith_result_iff (fun _ => exists_pageFor_eq_ok_iff) fun _ h => h.ne_unfinished
  refine ⟨hpage, fun o s hruns => ?_, hfilled, fun o s hruns hfills => ?_, ?_, ?_,
    renderWith_renders _, renderWith_renders _⟩
  · obtain ⟨r, hr⟩ := PageEnds.of_runs hruns
    exact ⟨r, hr, fun r' hr' => ((hpage r').mp hr').1.symm.trans ((hpage r).mp hr).1⟩
  · obtain ⟨r, hr⟩ := FilledEnds.of_runs hruns hfills
    exact ⟨r, hr, fun r' hr' => ((hfilled r').mp hr').1.symm.trans ((hfilled r).mp hr).1⟩
  · constructor
    · rintro ⟨fault, hresult, hfailure⟩
      have hends : c.PageEnds files script (.error fault) :=
        (hpage _).mpr ⟨hresult, by rintro ⟨⟩; cases hfailure⟩
      cases hends with
      | failed hruns => exact ⟨_, hruns⟩
      | function _ _ => cases hfailure
      | empty _ _ => cases hfailure
    · rintro ⟨s, hruns⟩
      exact ⟨.execution, ((hpage _).mp (.failed hruns)).1, rfl⟩
  · constructor
    · rintro ⟨fault, hresult, hfailure⟩
      have hends : c.FilledEnds files script vars (.error fault) :=
        (hfilled _).mpr ⟨hresult, by rintro ⟨⟩; cases hfailure⟩
      cases hends with
      | failed hruns => exact .inl ⟨_, hruns⟩
      | noFunction _ _ => cases hfailure
      | raised hruns hname hcalled => exact .inr ⟨_, _, _, hruns, hname, hcalled⟩
      | empty _ _ _ _ => cases hfailure
    · rintro (⟨s, hruns⟩ | ⟨f, s, s', hruns, hname, hcalled⟩)
      · exact ⟨.execution, ((hfilled _).mp (.failed hruns)).1, rfl⟩
      · exact ⟨.call, ((hfilled _).mp (.raised hruns hname hcalled)).1, rfl⟩

/-- A component can be called like a function, but is none. -/
example : ((ofRegistry (Markup.Registry.empty.register "Div" false)).renderVariables ⟨[]⟩
    "return Div" []).result = .error .noFunction := by
  decide +kernel

end Context

end Page

end Pagewright
