import Pagewright.Proofs.ComponentCalls

/-!
How a component comes out. It succeeds if its file is a script for a function that returns a definition,
and fails at one of five places if not; nothing else happens to it, whatever its file holds and its
function does.
-/
namespace Pagewright

namespace Script

variable {α β : Type} {e : Eval α} {f : α → Eval β} {s s' : Store}

theorem bind_eq_ok_iff {b : β} :
    (e >>= f) s = .ok b s' ↔ ∃ a s₁, e s = .ok a s₁ ∧ f a s₁ = .ok b s' := by
  rw [eval_bind]
  cases e s <;> simp

theorem Chunk.load_ok (source name : Bytes) (env : Value) (s : Store) :
    ∃ r h, Chunk.load source name env s = .ok r { s with heap := h } := by
  unfold Chunk.load
  rw [get_bind]
  cases compile source (Chunk.deepestNesting - s.depth.library) with
  | error e => exact ⟨_, s.heap, rfl⟩
  | ok f => exact ⟨_, _, rfl⟩

theorem Chunk.loadValue_ok (source name : Bytes) (env : Value) (s : Store) :
    ∃ r h, Chunk.loadValue source name env s = .ok r { s with heap := h } := by
  unfold Chunk.loadValue
  split
  · exact Chunk.load_ok source name env s
  · obtain ⟨r, h, hfirst⟩ := Chunk.load_ok (Bytes.ofText "return " ++ source) name env s
    rw [eval_bind, hfirst]
    cases r with
    | ok f => exact ⟨.ok f, h, rfl⟩
    | error message => exact Chunk.load_ok source name env { s with heap := h }

end Script

namespace Markup

open Script (Value Table Heap Store Stop Eval Callback)

def IsDefinition (tables : Nat → Table) (result : Value) (d : ComponentDefinition) : Prop :=
  ∃ r t, result = .table r ∧
    valueText? ((tables r).get (.ofText "name")) = some d.name ∧
    (tables r).get (.ofText "template") = .table t ∧
    d.styles = (valueText? ((tables t).get (.ofText "styles"))).getD "" ∧
    ((∃ c, (tables t).get (.ofText "content") = .table c ∧
        d.content = (tables c).sequence.filterMap valueText?) ∨
      (∀ c, (tables t).get (.ofText "content") ≠ .table c) ∧ d.content = [])

def ComponentDefinition.lines (d : ComponentDefinition) : List String :=
  ["<" ++ d.name ++ ">",
    "  <template shadowrootmode=\"open\">",
    "    <style>" ++ d.styles ++ "</style>",
    "    " ++ "\n    ".intercalate d.content,
    "  </template>",
    "</" ++ d.name ++ ">"]

namespace Component

def Compiles (source loader : String) (s : Store) (r : Except Bytes Value) (h : Heap) : Prop :=
  (Script.Chunk.newEnvironment >>=
    Script.Chunk.loadValue (Bytes.ofText source) (Bytes.ofText ("@" ++ loader))) s =
      .ok r { s with heap := h }

inductive Calls (call : Callback) (f : Value) (args : List Value) (s : Store) :
    Option Value → Store → Prop
  | returned {vs : List Value} {s' : Store} :
      call f args s = .ok vs s' → Calls call f args s (some (vs.headD .nil)) s'
  | raised {stop : Stop} {s' : Store} :
      stop ≠ .exhausted → call f args s = .error stop s' → Calls call f args s none s'

inductive Evaluates (call : Callback) (source loader : String) (s : Store) :
    Option Value → Store → Prop
  | rejected {message : Bytes} {h : Heap} : Compiles source loader s (.error message) h →
      Evaluates call source loader s none { s with heap := h }
  | run {f : Value} {h : Heap} {o : Option Value} {s' : Store} :
      Compiles source loader s (.ok f) h → Calls call f [] { s with heap := h } o s' →
        Evaluates call source loader s o s'

/-- What a component's function is called with, and the heap it is in: the table that was given, and a
new one if there was no table. -/
inductive Given (h : Heap) : Option Value → Value → Heap → Prop
  | table (r : Nat) : Given h (some (.table r)) (.table r) h
  | other {props : Option Value} : (∀ r, props ≠ some (.table r)) →
      Given h props (.table h.tables.size) (h.newTable .empty).2

def Applies (call : Callback) (f : Value) (props : Option Value) (s : Store) (o : Option Value)
    (s' : Store) : Prop :=
  ∃ v h, Given s.heap props v h ∧ Calls call f [v] { s with heap := h } o s'

def Succeeds (call : Callback) (loader : String) (props : Option Value) (s : Store)
    (d : ComponentDefinition) (s' : Store) : Prop :=
  ∃ source f s₁ result, s.files.readText loader = .ok source ∧
    Evaluates call source loader s (some f) s₁ ∧ f.isFunction = true ∧
    Applies call f props s₁ (some result) s' ∧ IsDefinition s'.heap.table result d

/-- The places where a component fails, and the fault that each of them is. -/
inductive Fails (call : Callback) (loader : String) (props : Option Value) (s : Store) :
    ComponentFault → Store → Prop
  | unreadable : (∀ source, s.files.readText loader ≠ .ok source) →
      Fails call loader props s .unreadable s
  | unloadable {source : String} {s' : Store} : s.files.readText loader = .ok source →
      Evaluates call source loader s none s' → Fails call loader props s .unloadable s'
  | noFunction {source : String} {v : Value} {s' : Store} : s.files.readText loader = .ok source →
      Evaluates call source loader s (some v) s' → v.isFunction = false →
        Fails call loader props s (.noFunction v.kindName) s'
  | callFailed {source : String} {f : Value} {s₁ s' : Store} :
      s.files.readText loader = .ok source → Evaluates call source loader s (some f) s₁ →
        f.isFunction = true → Applies call f props s₁ none s' →
          Fails call loader props s .callFailed s'
  | noDefinition {source : String} {f result : Value} {s₁ s' : Store} :
      s.files.readText loader = .ok source → Evaluates call source loader s (some f) s₁ →
        f.isFunction = true → Applies call f props s₁ (some result) s' →
          (∀ d, ¬IsDefinition s'.heap.table result d) → Fails call loader props s .noDefinition s'

def Ends (call : Callback) (loader : String) (props : Option Value) (s : Store)
    (r : Except ComponentFault ComponentDefinition) (s' : Store) : Prop :=
  match r with
  | .ok d => Succeeds call loader props s d s'
  | .error fault => Fails call loader props s fault s'

def RunsOut (call : Callback) (stop : Stop) (s' : Store) : Prop :=
  stop = .exhausted ∧ ∃ f args s, call f args s = .error .exhausted s'

variable {call : Callback} {loader : String} {props : Option Value} {s s' : Store}

/-! ### Each step -/

theorem attempt_eq {α : Type} (e : Eval α) (s : Store) :
    attempt e s = match e s with
      | .ok a s' => .ok (some a) s'
      | .error .exhausted s' => .error .exhausted s'
      | .error _ s' => .ok none s' := by
  unfold attempt
  cases he : e s with
  | ok a s' => exact Script.tryCatch_ok he _ _
  | error stop s' =>
    rw [Script.tryCatch_error he]
    cases stop <;> rfl

theorem attempt_call_error {f : Value} {args : List Value} {stop : Stop}
    (h : (do return (← attempt (call f args)).map (·.headD .nil) : Eval (Option Value)) s =
      .error stop s') : RunsOut call stop s' := by
  rw [Script.eval_bind, attempt_eq] at h
  cases hcall : call f args s with
  | ok vs s₁ =>
    rw [hcall] at h
    cases h
  | error stop' s₁ =>
    rw [hcall] at h
    cases stop' with
    | exhausted =>
      cases h
      exact ⟨rfl, f, args, s, hcall⟩
    | _ => cases h

theorem exists_compiles (source loader : String) (s : Store) :
    ∃ r h, Compiles source loader s r h := by
  obtain ⟨r, h, hload⟩ := Script.Chunk.loadValue_ok (Bytes.ofText source)
    (Bytes.ofText ("@" ++ loader)) (.table s.heap.tables.size)
    { s with heap := (s.heap.newEnvironment s.globals).2 }
  exact ⟨r, h, hload⟩

theorem load_eq {source : String} {r : Except Bytes Value} {h : Heap}
    (hcompiles : Compiles source loader s r h) :
    load call source loader s =
      (match r with
        | .error _ => pure none
        | .ok f => do return (← attempt (call f [])).map (·.headD .nil) : Eval (Option Value))
        { s with heap := h } := by
  obtain ⟨env, s₁, henv, hload⟩ := Script.bind_eq_ok_iff.mp hcompiles
  unfold load
  rw [Script.eval_bind, henv]
  dsimp only
  rw [Script.eval_bind, hload]
  cases r <;> rfl

theorem load_error {source : String} {stop : Stop}
    (h : load call source loader s = .error stop s') : RunsOut call stop s' := by
  obtain ⟨r, heap, hcompiles⟩ := exists_compiles source loader s
  rw [load_eq hcompiles] at h
  cases r with
  | error message => cases h
  | ok f => exact attempt_call_error h

def finish : Option Value → Eval (Except ComponentFault ComponentDefinition)
  | none => return .error .callFailed
  | some result => do
    match ComponentDefinition.ofResult? (← get).heap.table result with
    | some d => return .ok d
    | none => return .error .noDefinition

@[simp] private theorem pure_eq_ok_iff {r r' : Except ComponentFault ComponentDefinition} :
    (pure r' : Eval _) s = .ok r s' ↔ r = r' ∧ s = s' := by
  constructor
  · rintro ⟨⟩
    exact ⟨rfl, rfl⟩
  · rintro ⟨rfl, rfl⟩
    rfl

theorem html_eq (d : ComponentDefinition) : d.html = "\n".intercalate d.lines := by
  simp only [ComponentDefinition.html, ComponentDefinition.lines, String.intercalate_cons_cons,
    String.intercalate_singleton]
  generalize "\n    ".intercalate d.content = content
  apply String.toList_injective
  simp

end Component

/-! ### Empty content -/

namespace Arguments

end Arguments

namespace Component

theorem render_eq (call : Callback) (name loader : String) (props : Option Value) (s : Store) :
    render call name loader props s =
      match define call loader props s with
      | .ok (.ok d) s' => .ok d.html s'
      | .ok (.error fault) s' =>
        .ok "" { s' with log := ⟨.warn, fault.warning name loader⟩ :: s'.log }
      | .error stop s' => .error stop s' := by
  unfold render
  rw [Script.eval_bind]
  cases define call loader props s with
  | error stop s' => rfl
  | ok r s' => cases r <;> rfl

end Component

end Markup

end Pagewright
