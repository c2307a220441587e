import Pagewright.Proofs.Agreement
import Pagewright.Proofs.NameTokens
import Pagewright.Proofs.Overlays

/-!
The names of components in scripts. Every accepted name is an identifier; scripts find the component
under it unless it is a reserved word, or one of the two names that stand for environments.
-/
namespace Pagewright.Script

/-! ### Runs of short functions -/

variable {s : Store} {e : Expr} {v : Value}

theorem callValue_returns {r steps : Nat} {es : List Expr} {vs : List Value} {slots : List Nat}
    {chunk : Bytes} (hdepth : s.depth = ⟨0, 0⟩)
    (hclosure : s.heap.closures.getD r default = ⟨.mk 0 true [.returns es], slots, chunk⟩)
    (hsteps : steps ≤ 100) (hes : ∀ stack, Leads steps
      (Machine.exec [.returns es] [.returns es] ⟨slots, [], chunk⟩ stack { s with depth := ⟨1, 1⟩ })
      ⟨.deliver vs, .returning :: stack, { s with depth := ⟨1, 1⟩ }⟩) :
    callValue (.closure r) [] s = .ok vs s := by
  let inner : Store := { s with depth := ⟨1, 1⟩ }
  let called : List Frame := [.activation none ⟨0, 1⟩]
  have hnested : nested (.closure r) [] s =
      ⟨.apply (.closure r) [] none, [], { s with depth := ⟨0, 1⟩ }⟩ := by
    unfold nested
    rw [hdepth]
    rfl
  have happly : Machine.step ⟨.apply (.closure r) [] none, [], { s with depth := ⟨0, 1⟩ }⟩ =
      .more ⟨.exec [.returns es] [.returns es] ⟨slots, [], chunk⟩, called, inner⟩ := by
    change Next.more (Machine.enter (s.heap.closures.getD r default) [] none ⟨0, 1⟩ [] inner) = _
    rw [hclosure]
    rfl
  have hleave : Leads 2 ⟨.deliver vs, .returning :: called, inner⟩
      ⟨.deliver vs, [], { s with depth := ⟨0, 1⟩ }⟩ :=
    ⟨_, rfl, _, rfl, rfl⟩
  have hall : Leads (2 + steps + 2) (nested (.closure r) [] s)
      ⟨.deliver vs, [], { s with depth := ⟨0, 1⟩ }⟩ := by
    have hstart : Leads 2 (nested (.closure r) [] s) (Machine.exec [.returns es] [.returns es]
        ⟨slots, [], chunk⟩ called inner) :=
      hnested ▸ ⟨_, happly, _, rfl, rfl⟩
    exact (hstart.trans (hes called)).trans hleave
  obtain ⟨fuel, hfuel⟩ : ∃ fuel, plenty = fuel + 1 + (2 + steps + 2) :=
    ⟨plenty - steps - 5, by unfold plenty; omega⟩
  unfold callValue callBy
  dsimp only
  rw [hfuel, hall.run]
  rfl

/-! ### Words that are loaded -/

variable {w name : Bytes} {env : Value} {f : Function}

theorem Token.IsWord.not_binary (hw : Token.IsWord w) :
    ¬w.take 4 = 0x1b :: Bytes.ofText "Lua" := by
  cases w with
  | nil => exact absurd hw id
  | cons b w =>
    intro heq
    obtain rfl : b = 0x1b := (List.cons.inj heq).1
    exact absurd hw.1 (by decide)

theorem Chunk.load_eq {source : Bytes} {f : Function}
    (h : compile source (deepestNesting - s.depth.library) = .ok f) (name : Bytes) (env : Value) :
    load source name env s =
      .ok (.ok (.closure s.heap.closures.size)) (s.loaded env f (displayName name)) := by
  unfold load
  rw [get_bind, h]
  rfl

theorem Chunk.load_error {source : Bytes} {e : SourceError}
    (h : compile source (deepestNesting - s.depth.library) = .error e) (name : Bytes) (env : Value) :
    load source name env s = .ok (.error (errorText (displayName name) e)) s := by
  unfold load
  rw [get_bind, h]
  rfl

theorem Chunk.loadValue_of_compile (hw : Token.IsWord w) (hdepth : s.depth = ⟨0, 0⟩)
    (h : compile (Bytes.ofText "return " ++ w) deepestNesting = .ok f) :
    loadValue w name env s =
      .ok (.ok (.closure s.heap.closures.size)) (s.loaded env f (displayName name)) := by
  have hlevel : deepestNesting - s.depth.library = deepestNesting := by rw [hdepth]; rfl
  rw [loadValue, if_neg hw.not_binary, eval_bind, load_eq (hlevel ▸ h)]
  rfl

theorem Chunk.loadValue_of_error {e : SourceError} (hw : Token.IsWord w)
    (hdepth : s.depth = ⟨0, 0⟩)
    (h : compile (Bytes.ofText "return " ++ w) deepestNesting = .error e) (name : Bytes)
    (env : Value) :
    loadValue w name env s = load w name env s := by
  have hlevel : deepestNesting - s.depth.library = deepestNesting := by rw [hdepth]; rfl
  rw [loadValue, if_neg hw.not_binary, eval_bind, load_error (hlevel ▸ h)]

/-! ### What a word comes to -/

variable {globals r : Nat}

def nameValue (s : Store) (globals r : Nat) (name : Bytes) : Value :=
  if name = Scope.environment then .table r
  else (selfAlone r name).orElse ((s.heap.table globals).get (.string name))

theorem nameValue_eq_hosted_iff {name : String} {i : Nat}
    (hbound : (s.heap.table globals).get (.ofText name) = .hosted i) (r : Nat) :
    nameValue s globals r (Bytes.ofText name) = .hosted i ↔
      name ≠ "_ENV" ∧ name ≠ "_G" := by
  have hinj {a b : String} (h : Bytes.ofText a = Bytes.ofText b) : a = b :=
    Page.Variables.ofText_inj (congrArg Value.string h)
  unfold nameValue selfAlone
  split
  · next henv => simp [hinj henv]
  · next henv =>
    have hne : name ≠ "_ENV" := fun heq => henv (congrArg Bytes.ofText heq)
    split
    · next hself => simp [hinj hself, Value.orElse]
    · next hself =>
      have hne' : name ≠ "_G" := fun heq => hself (congrArg Bytes.ofText heq)
      simpa [hne, hne', Value.orElse, Value.ofText] using hbound

theorem resolve_chunkScope (w : Bytes) (line : Nat) : chunkScope.resolve w line =
    if w = Scope.environment then .variable 0
    else .index (.variable 0) (.constant (.string w)) line := by
  have hfind : Scope.find w 0 chunkScope.names =
      if Scope.environment = w then some (0, .plain) else none := rfl
  rw [Scope.resolve, hfind]
  by_cases h : w = Scope.environment
  · rw [if_pos h.symm, if_pos h]
  · rw [if_neg (Ne.symm h), if_neg h]
    rfl

private theorem callValue_name (hdepth : s.depth = ⟨0, 0⟩)
    (ho : s.heap.Overlay globals r (selfAlone r))
    (hplain : (s.heap.table globals).metatable = none) (w chunk : Bytes) :
    let t := s.loaded (.table r) (.mk 0 true [.returns [chunkScope.resolve w 1]]) chunk
    callValue (.closure s.heap.closures.size) [] t = .ok [nameValue s globals r w] t := by
  intro t
  have hclosure := s.loaded_closure (.table r) (.mk 0 true [.returns [chunkScope.resolve w 1]]) chunk
  have hvariable (stack : List Frame) : Leads 1
      ⟨.eval (.variable 0) ⟨[s.heap.cells.size], [], chunk⟩, stack, { t with depth := ⟨1, 1⟩ }⟩
      ⟨.deliver [.table r], stack, { t with depth := ⟨1, 1⟩ }⟩ := by
    rw [← s.loaded_cell (.table r) (.mk 0 true [.returns [chunkScope.resolve w 1]]) chunk]
    exact .one rfl
  rw [nameValue]
  split
  · next henv =>
    refine callValue_returns hdepth hclosure (show 1 ≤ 100 by decide) fun stack => ?_
    rw [resolve_chunkScope, if_pos henv]
    exact hvariable _
  · next henv =>
    refine callValue_returns hdepth hclosure (show 5 ≤ 100 by decide) fun stack => ?_
    rw [resolve_chunkScope, if_neg henv]
    have ho : Heap.Overlay t.heap globals r (selfAlone r) := ho.of_same (Nat.le_refl _) rfl rfl
    exact Spot.index_leads (s := { t with depth := ⟨1, 1⟩ }) ho hplain hvariable w 1 _

private theorem callValue_constant (hdepth : s.depth = ⟨0, 0⟩) (hf : f.IsConstant) (env : Value)
    (chunk : Bytes) :
    ∃ vs, callValue (.closure s.heap.closures.size) [] (s.loaded env f chunk) =
      .ok vs (s.loaded env f chunk) ∧ ∀ i, vs.headD .nil ≠ .hosted i := by
  have hclosure := s.loaded_closure env f chunk
  obtain ⟨es, rfl, rfl | ⟨l, rfl⟩⟩ := hf
  · refine ⟨[], callValue_returns hdepth hclosure (Nat.zero_le 100) fun stack => rfl, ?_⟩
    exact fun i => nofun
  · refine ⟨[l.value], callValue_returns hdepth hclosure (show 1 ≤ 100 by decide)
      fun stack => .one rfl, ?_⟩
    exact fun i => by cases l <;> exact nofun

end Pagewright.Script

namespace Pagewright.Page.Context

open Script

variable {α β ε : Type} {call : Callback} {script : String} {s t u : Store} {f : Value}

theorem run_bind_of_ok {e : ExceptT ε Eval α} {g : α → ExceptT ε Eval β} {a : α}
    (h : e.run s = .ok (.ok a) t) : (e >>= g).run s = (g a).run t := by
  rw [ExceptT.run_bind, eval_bind, h]

theorem run_liftM {e : Eval α} {a : α} (h : e s = .ok a t) :
    (liftM e : ExceptT ε Eval α).run s = .ok (.ok a) t := by
  change (Except.ok <$> e) s = _
  rw [map_eq_pure_bind, eval_bind, h]
  rfl

private theorem run_guarded (fault : RenderFault) {e : Eval α} {a : α} (h : e s = .ok a t) :
    (guarded fault e).run s = .ok (.ok a) t := by
  change EStateM.tryCatch (Except.ok <$> e) _ s = _
  have hok : (Except.ok <$> e : Eval (Except RenderFault α)) s = .ok (.ok a) t := run_liftM h
  unfold EStateM.tryCatch
  rw [hok]

def entered (s : Store) : Store :=
  { s with heap := (s.heap.newEnvironment s.globals).2 }

theorem evaluate_of_ok {vs : List Value}
    (hload : Chunk.loadValue (Bytes.ofText script) chunkName (.table s.heap.tables.size)
      (entered s) = .ok (.ok f) t) (hcall : call f [] t = .ok vs u) :
    (evaluate call script).run s = .ok (.ok (vs.headD .nil)) u := by
  have hmade : Chunk.newEnvironment s = .ok (.table s.heap.tables.size) (entered s) := rfl
  unfold evaluate
  refine (run_bind_of_ok (run_liftM hmade)).trans ((run_bind_of_ok (run_liftM hload)).trans ?_)
  exact run_bind_of_ok (run_guarded .execution hcall)

theorem evaluate_of_error {message : Bytes}
    (hload : Chunk.loadValue (Bytes.ofText script) chunkName (.table s.heap.tables.size)
      (entered s) = .ok (.error message) t) :
    (evaluate call script).run s = .ok (.error .execution) t := by
  have hmade : Chunk.newEnvironment s = .ok (.table s.heap.tables.size) (entered s) := rfl
  unfold evaluate
  exact (run_bind_of_ok (run_liftM hmade)).trans (run_bind_of_ok (run_liftM hload))

variable {name : String}

theorem evaluate_name (h : Server.IsIdentifier name.toList) (hname : Keyword.ofName? name = none)
    (hdepth : s.depth = ⟨0, 0⟩) (hroom : s.globals < s.heap.tables.size)
    (hplain : (s.heap.table s.globals).metatable = none) : ∃ t, t.tags = s.tags ∧
      (evaluate callValue name).run s = .ok (.ok (nameValue s s.globals s.heap.tables.size
        (Bytes.ofText name))) t := by
  have hw := Token.isWord_ofText h
  have hword : Token.word (Bytes.ofText name) = .name (Bytes.ofText name) := by
    rw [Token.word_ofText, hname]
    rfl
  have hglobals : (entered s).heap.table s.globals = s.heap.table s.globals := by
    rw [entered, Heap.table_newEnvironment, if_neg (by omega), if_neg (by omega)]
  have hload : Chunk.loadValue (Bytes.ofText name) chunkName (.table s.heap.tables.size)
      (entered s) = _ :=
    Chunk.loadValue_of_compile hw hdepth (compile_return_name hw hword)
  have hcall := callValue_name (s := entered s) hdepth (s.heap.overlay_newEnvironment s.globals)
    (hglobals ▸ hplain) (Bytes.ofText name) (Chunk.displayName chunkName)
  rw [nameValue, hglobals] at hcall
  exact ⟨(entered s).loaded _ _ _, rfl, evaluate_of_ok hload hcall⟩

theorem evaluate_keyword (h : Server.IsIdentifier name.toList) (hname : Keyword.ofName? name ≠ none)
    (hdepth : s.depth = ⟨0, 0⟩) (i : Nat) (t : Store) :
    (evaluate callValue name).run s ≠ .ok (.ok (.hosted i)) t := by
  have hw := Token.isWord_ofText h
  obtain ⟨k, hk⟩ := Option.ne_none_iff_exists'.mp hname
  have hword : Token.word (Bytes.ofText name) = .keyword k := by
    rw [Token.word_ofText, hk]
    rfl
  have hconstant {f : Function} (hf : f.IsConstant)
      (hload : Chunk.loadValue (Bytes.ofText name) chunkName (.table s.heap.tables.size)
        (entered s) = .ok (.ok (.closure (entered s).heap.closures.size))
        ((entered s).loaded (.table s.heap.tables.size) f (Chunk.displayName chunkName))) :
      (evaluate callValue name).run s ≠ .ok (.ok (.hosted i)) t := by
    obtain ⟨vs, hcall, hvs⟩ := callValue_constant (s := entered s) hdepth hf
      (.table s.heap.tables.size) (Chunk.displayName chunkName)
    rw [evaluate_of_ok hload hcall]
    exact fun heq => hvs i (Except.ok.inj (EStateM.Result.ok.inj heq).1)
  have hlevel : Chunk.deepestNesting - (entered s).depth.library = Chunk.deepestNesting := by
    change Chunk.deepestNesting - s.depth.library = _
    rw [hdepth]
    rfl
  cases hreturn : compile (Bytes.ofText "return " ++ Bytes.ofText name) Chunk.deepestNesting with
  | ok f =>
    exact hconstant (compile_return_keyword hw hword hreturn)
      (Chunk.loadValue_of_compile hw hdepth hreturn)
  | error e =>
    have hload := Chunk.loadValue_of_error (s := entered s) hw hdepth hreturn chunkName
      (.table s.heap.tables.size)
    cases hstatements : compile (Bytes.ofText name) Chunk.deepestNesting with
    | ok f =>
      rw [Chunk.load_eq (hlevel ▸ hstatements)] at hload
      exact hconstant (compile_keyword hw hword hstatements) hload
    | error e =>
      rw [Chunk.load_error (hlevel ▸ hstatements)] at hload
      rw [evaluate_of_error hload]
      exact nofun

end Pagewright.Page.Context

namespace Pagewright.Markup.Registry

@[simp] theorem insert_names (name : String) (b : Binding) (bindings : List (String × Binding)) :
    (insert name b bindings).map (·.1) =
      if name ∈ bindings.map (·.1) then bindings.map (·.1) else bindings.map (·.1) ++ [name] := by
  induction bindings with
  | nil => rfl
  | cons first rest ih =>
    obtain ⟨n, old⟩ := first
    rw [insert]
    by_cases hn : n = name
    · simp [hn]
    · rw [if_neg hn, List.map_cons, ih]
      by_cases hmem : name ∈ rest.map (·.1)
      · simp [hmem]
      · simp [hmem, Ne.symm hn]

theorem nodup_bind {r : Registry} (h : r.names.Nodup) (name : String) (b : Binding) :
    (r.bind name b).names.Nodup := by
  unfold names bind at *
  rw [insert_names]
  split
  · exact h
  · next hnew =>
    refine List.nodup_append.mpr ⟨h, List.pairwise_singleton _ _, fun n hn n' hn' heq => hnew ?_⟩
    rwa [← List.mem_singleton.mp hn', ← heq]

end Pagewright.Markup.Registry

namespace Pagewright.Server

open Markup (Registry)
open Page (Context)
open Script (Keyword Token Value Scope callValue selfBytes)

/-- An accepted name is an identifier, and its path is not empty and has no blank at its ends. The
name is a name of scripts unless it is a reserved word. Wherever it is registered, it is in scripts
what it was registered as, unless it is reserved or stands for an environment. -/
theorem accepted_name_callable {text : String} {spec : ComponentSpec}
    (h : ComponentSpec.parse text = .ok spec) :
    IsIdentifier spec.name.toList ∧ spec.path ≠ "" ∧ Text.Trimmed spec.path.toList ∧
      (Token.scan (Bytes.ofText spec.name) = .ok ([⟨.name (Bytes.ofText spec.name), 1⟩], 1) ↔
        Keyword.ofName? spec.name = none) ∧
      ∀ (registry : Registry) files i, registry.names.Nodup →
        registry.bindings[i]? = some (spec.name, .custom spec.path) →
        ((∃ s, (Context.evaluate callValue spec.name).run ((Context.ofRegistry registry).store files) =
            .ok (.ok (.hosted i)) s ∧ s.tags[i]? = some (spec.name, .custom spec.path)) ↔
          Keyword.ofName? spec.name = none ∧ spec.name ≠ "_ENV" ∧ spec.name ≠ "_G") := by
  obtain ⟨⟨hname, hne, htrimmed⟩, -⟩ := ComponentSpec.parse_eq_ok_iff.mp h
  refine ⟨hname, hne, htrimmed, Token.scan_identifier_iff hname, ?_⟩
  intro registry files i hnames hbinding
  have hinstalled := Script.installed_ofRegistry hnames files
  have hdepth : ((Context.ofRegistry registry).store files).depth = ⟨0, 0⟩ := rfl
  generalize (Context.ofRegistry registry).store files = start at hinstalled hdepth ⊢
  obtain ⟨hbound, htag⟩ := hinstalled.bound i spec.name _ hbinding
  by_cases hword : Keyword.ofName? spec.name = none
  · obtain ⟨t, htags, hrun⟩ := Context.evaluate_name hname hword hdepth hinstalled.room
      hinstalled.plain
    have hvalue := Script.nameValue_eq_hosted_iff hbound start.heap.tables.size
    constructor
    · rintro ⟨s, hs, -⟩
      obtain ⟨hv, -⟩ := EStateM.Result.ok.inj (hrun.symm.trans hs)
      exact ⟨hword, hvalue.mp (Except.ok.inj hv)⟩
    · rintro ⟨-, hfree⟩
      refine ⟨t, ?_, htags ▸ htag⟩
      rw [hrun, hvalue.mpr hfree]
  · constructor
    · rintro ⟨s, hs, -⟩
      exact absurd hs (Context.evaluate_keyword hname hword hdepth i s)
    · exact fun hfree => absurd hfree.1 hword

/-- A component with blanks around its name and path. -/
theorem accepted_name_callable_blanks :
    let spec : ComponentSpec := ⟨"My_Box", "box.lua"⟩
    let registry := Registry.standard.registerCustom spec.name spec.path
    ComponentSpec.parse " My_Box = box.lua " = .ok spec ∧ registry.names.Nodup ∧
      ∃ i s, registry.bindings[i]? = some (spec.name, .custom spec.path) ∧
        (Context.evaluate callValue spec.name).run ((Context.ofRegistry registry).store ⟨[]⟩) =
          .ok (.ok (.hosted i)) s := by
  intro spec registry
  have hparse : ComponentSpec.parse " My_Box = box.lua " = .ok spec := by decide +kernel
  have hnames : registry.names.Nodup := Registry.nodup_bind (by decide +kernel) _ _
  have hbinding : registry.bindings[32]? = some (spec.name, .custom spec.path) := by decide +kernel
  obtain ⟨-, -, -, -, hcallable⟩ := accepted_name_callable hparse
  obtain ⟨s, hrun, -⟩ := (hcallable registry ⟨[]⟩ 32 hnames hbinding).mpr (by decide +kernel)
  exact ⟨hparse, hnames, 32, s, hbinding, hrun⟩

/-- A reserved word is accepted as a name, but scripts cannot call it. -/
theorem reserved_name_accepted :
    ComponentSpec.parse "end=x.lua" = .ok ⟨"end", "x.lua"⟩ ∧
      Token.scan (Bytes.ofText "end") = .ok ([⟨.keyword .end, 1⟩], 1) := by
  decide +kernel

end Pagewright.Server
