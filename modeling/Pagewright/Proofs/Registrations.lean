import Mathlib.Data.List.Dedup
import Pagewright.Proofs.MirroredContexts
import Pagewright.Server.Config

/-!
Registrations. A registry is a map in which the last registration of a name counts; the order in which
names are kept shows neither in the map nor in the contexts that are made from it.
-/
namespace Pagewright.Markup

inductive Registration where
  | register (name : String) (selfClosing : Bool)
  | registerRawBody (name : String)
  | registerElement (spec : ElementSpec)
  | registerCustom (name loader : String)
  | registerStyleHelper (name : String)
deriving DecidableEq, Repr

namespace Registration

def apply (r : Registry) : Registration → Registry
  | .register name selfClosing => r.register name selfClosing
  | .registerRawBody name => r.registerRawBody name
  | .registerElement spec => r.registerElement spec
  | .registerCustom name loader => r.registerCustom name loader
  | .registerStyleHelper name => r.registerStyleHelper name

def name : Registration → String
  | .register name _ => name
  | .registerRawBody name => name
  | .registerElement spec => spec.name
  | .registerCustom name _ => name
  | .registerStyleHelper name => name

def binding : Registration → Binding
  | .register name selfClosing => .element (.ofName name selfClosing)
  | .registerRawBody name => .element (ElementSpec.ofName name false).withRawBody
  | .registerElement spec => .element spec
  | .registerCustom _ loader => .custom loader
  | .registerStyleHelper _ => .styleSheet

theorem apply_eq_bind (r : Registry) (call : Registration) :
    call.apply r = r.bind call.name call.binding := by cases call <;> rfl

def last? (name : String) (calls : List Registration) : Option Binding :=
  (calls.filter fun call => call.name = name).getLast?.map binding

@[simp] theorem last?_concat (name : String) (calls : List Registration) (call : Registration) :
    last? name (calls ++ [call]) =
      if name = call.name then some call.binding else last? name calls := by
  unfold last?
  rw [List.filter_append]
  by_cases h : call.name = name
  · simp [h]
  · simp [h, Ne.symm h]

end Registration

namespace Registry

open Arguments (lookup_cons_eq mem_iff_lookup_of_nodup)

variable {r r' : Registry} {name : String} {b : Binding}

/-! ### One registration -/

@[simp] private theorem get?_bind (r : Registry) (name name' : String) (b : Binding) :
    (r.bind name b).get? name' = if name' = name then some b else r.get? name' := by
  change (insert name b r.bindings).lookup name' =
    if name' = name then some b else r.bindings.lookup name'
  induction r.bindings with
  | nil => exact lookup_cons_eq name' (name, b) []
  | cons first rest ih =>
    obtain ⟨n, old⟩ := first
    rw [insert]
    split
    · next hn =>
      rw [lookup_cons_eq, lookup_cons_eq, hn]
      split <;> rfl
    · next hn =>
      rw [lookup_cons_eq, lookup_cons_eq, ih]
      by_cases h : name' = name
      · simp [h, Ne.symm hn]
      · simp [h]

theorem mem_bindings_iff (h : r.names.Nodup) : (name, b) ∈ r.bindings ↔ r.get? name = some b :=
  mem_iff_lookup_of_nodup h

theorem bindings_perm (h : r.names.Nodup) (h' : r'.names.Nodup)
    (hget : ∀ name, r.get? name = r'.get? name) : r.bindings.Perm r'.bindings := by
  refine (List.perm_ext_iff_of_nodup (.of_map _ h) (.of_map _ h')).mpr fun ⟨name, b⟩ => ?_
  rw [mem_bindings_iff h, mem_bindings_iff h', hget]

/-! ### Several registrations -/

def after (r : Registry) (calls : List Registration) : Registry := calls.foldl Registration.apply r

@[simp] theorem after_concat (r : Registry) (calls : List Registration) (call : Registration) :
    r.after (calls ++ [call]) = (r.after calls).bind call.name call.binding := by
  rw [after, List.foldl_append]
  exact Registration.apply_eq_bind _ call

theorem after_nodup (h : r.names.Nodup) (calls : List Registration) : (r.after calls).names.Nodup :=
  List.foldlRecOn (motive := fun r : Registry => r.names.Nodup) calls _ h fun r hr call _ => by
    rw [call.apply_eq_bind]
    exact nodup_bind hr _ _

@[simp] theorem after_get? (r : Registry) (calls : List Registration) (name : String) :
    (r.after calls).get? name = (Registration.last? name calls).or (r.get? name) := by
  induction calls using List.reverseRecOn with
  | nil => rfl
  | append_singleton calls call ih =>
    rw [after_concat, get?_bind, Registration.last?_concat, ih]
    split <;> rfl

@[simp] private theorem mem_names_bind (r : Registry) (name name' : String) (b : Binding) :
    name' ∈ (r.bind name b).names ↔ name' ∈ r.names ∨ name' = name := by
  change name' ∈ (insert name b r.bindings).map (·.1) ↔ _
  rw [insert_names]
  split
  · next hmem => exact ⟨.inl, fun h => h.elim id fun heq => heq ▸ hmem⟩
  · simp [names]

@[simp] private theorem mem_names_after (r : Registry) (calls : List Registration) (name : String) :
    name ∈ (r.after calls).names ↔ name ∈ r.names ++ calls.map (·.name) := by
  induction calls using List.reverseRecOn with
  | nil => simp [after]
  | append_singleton calls call ih =>
    rw [after_concat, mem_names_bind, ih, List.map_append, ← List.append_assoc,
      List.mem_append (s := r.names ++ _), List.map_singleton, List.mem_singleton]

/-- A registry that has come from another one by some registrations: the last one of a name counts. -/
structure LastWins (base : Registry) (calls : List Registration) (r : Registry) : Prop where
  get : ∀ name, r.get? name = (Registration.last? name calls).or (base.get? name)
  /-- As many as there are names. -/
  size : r.size = (base.names ++ calls.map (·.name)).dedup.length
  /-- Iteration gives each name once, in whatever order. -/
  once : ∀ order : List (String × Binding), order.Perm r.bindings → (order.map Prod.fst).Nodup ∧
    ∀ name b, (name, b) ∈ order ↔ r.get? name = some b

theorem lastWins_after (h : r.names.Nodup) (calls : List Registration) :
    r.LastWins calls (r.after calls) := by
  have hnodup := after_nodup h calls
  constructor
  case get => exact r.after_get? calls
  case size =>
    have hperm : (r.after calls).names.Perm (r.names ++ calls.map (·.name)).dedup := by
      refine (List.perm_ext_iff_of_nodup hnodup (List.nodup_dedup _)).mpr fun name => ?_
      rw [List.mem_dedup, mem_names_after]
    rw [← hperm.length_eq, names, List.length_map, size]
  case once =>
    intro order horder
    refine ⟨(horder.map Prod.fst).nodup_iff.mpr hnodup, fun name b => ?_⟩
    rw [horder.mem_iff, mem_bindings_iff hnodup]

end Registry

/-! ### Registries and their clones -/

inductive RegistryUse where
  | register (i : Nat) (call : Registration)
  | clone (i : Nat)
deriving DecidableEq, Repr

namespace RegistryUse

def apply (rs : List Registry) : RegistryUse → List Registry
  | .register i call => rs.modify i call.apply
  | .clone i => rs ++ rs[i]?.toList

def record (histories : List (List Registration)) : RegistryUse → List (List Registration)
  | .register i call => histories.modify i (· ++ [call])
  | .clone i => histories ++ histories[i]?.toList

end RegistryUse

namespace Registry

def used (base : Registry) (uses : List RegistryUse) : List Registry :=
  uses.foldl RegistryUse.apply [base]

def histories (uses : List RegistryUse) : List (List Registration) :=
  uses.foldl RegistryUse.record [[]]

private theorem apply_map_after (base : Registry) (use : RegistryUse)
    (histories : List (List Registration)) :
    use.apply (histories.map base.after) = (use.record histories).map base.after := by
  cases use with
  | register i call =>
    have hstep (calls : List Registration) :
        call.apply (base.after calls) = base.after (calls ++ [call]) := by
      rw [after_concat, call.apply_eq_bind]
    apply List.ext_getElem?
    intro j
    simp only [RegistryUse.apply, RegistryUse.record, List.getElem?_modify, List.getElem?_map]
    cases histories[j]? with
    | none => rfl
    | some calls =>
      by_cases hi : i = j <;> simp [hi, hstep]
  | clone i =>
    simp only [RegistryUse.apply, RegistryUse.record, List.getElem?_map, List.map_append]
    cases histories[i]? <;> rfl

theorem used_eq (base : Registry) (uses : List RegistryUse) :
    base.used uses = (histories uses).map base.after := by
  induction uses using List.reverseRecOn with
  | nil => rfl
  | append_singleton uses use ih =>
    rw [used, histories, List.foldl_append, List.foldl_append]
    change use.apply (base.used uses) = (use.record (histories uses)).map base.after
    rw [ih, apply_map_after]

/-- A registry in which nothing is registered stays as it is. -/
theorem used_append (base : Registry) (uses later : List RegistryUse) {i : Nat}
    (hi : i < (base.used uses).length) (h : ∀ call, .register i call ∉ later) :
    (base.used (uses ++ later))[i]? = (base.used uses)[i]? := by
  rw [used, List.foldl_append]
  change (later.foldl RegistryUse.apply (base.used uses))[i]? = _
  generalize base.used uses = rs at hi
  induction later generalizing rs with
  | nil => rfl
  | cons use later ih =>
    have hlater (call : Registration) : .register i call ∉ later :=
      fun hmem => h call (List.mem_cons_of_mem _ hmem)
    cases use with
    | register j call =>
      have hj : j ≠ i := fun heq => h call (heq ▸ List.mem_cons_self)
      refine (ih hlater _ (by rwa [RegistryUse.apply, List.length_modify])).trans ?_
      exact List.getElem?_modify_ne _ _ hj
    | clone j =>
      refine (ih hlater _ (by rw [RegistryUse.apply, List.length_append]; omega)).trans ?_
      exact List.getElem?_append_left hi

end Registry

end Pagewright.Markup

namespace Pagewright.Page.Context

open Script
open Markup (Registry Binding)

/-- In a context a name is an object whose calls are those of a binding. -/
def Calls (c : Context) (name : String) (b : Binding) : Prop :=
  ∃ i, (c.heap.table 0).get (.ofText name) = .hosted i ∧ ∀ s : Store, s.tags = c.tags →
    ∀ call args, external call (.hosted i) args s = (List.singleton <$> b.call call name args) s

theorem calls_ofRegistry {r : Registry} {name : String} {b : Binding} (h : r.names.Nodup)
    (hget : r.get? name = some b) : (ofRegistry r).Calls name b := by
  obtain ⟨i, hi⟩ := List.mem_iff_getElem?.mp ((Registry.mem_bindings_iff h).mpr hget)
  obtain ⟨hbound, htag⟩ := (installed_ofRegistry h ⟨[]⟩).bound i name b hi
  refine ⟨i, hbound, fun s hs call args => ?_⟩
  have htag' : s.tags[i]? = some (name, b) := hs ▸ htag
  unfold external
  rw [get_bind]
  dsimp only
  rw [htag', map_eq_pure_bind]
  rfl

/-- Two contexts in which every call of every name of a registry has the same result: the names have the
same bindings, and scripts give the same unless they go through the globals with `next`, whose order is
not specified. Those that leave the globals out of reach do not (`Context.Fresh.unordered`). -/
structure Alike (r : Registry) (c c' : Context) : Prop where
  calls : ∀ name b, r.get? name = some b → c.Calls name b ∧ c'.Calls name b
  pages : ∀ jobs, c.Unordered jobs → c'.pages jobs = c.pages jobs

theorem alike_of_get? {r r' : Registry} (h : r.names.Nodup) (h' : r'.names.Nodup)
    (hget : ∀ name, r.get? name = r'.get? name) {order order' : List (String × Binding)}
    (horder : order.Perm r.bindings) (horder' : order'.Perm r'.bindings) :
    Alike r (ofRegistry ⟨order⟩) (ofRegistry ⟨order'⟩) := by
  have hnodup {r : Registry} {order : List (String × Binding)} (h : r.names.Nodup)
      (horder : order.Perm r.bindings) : (order.map Prod.fst).Nodup :=
    (horder.map Prod.fst).nodup_iff.mpr h
  have hfound {r : Registry} {order : List (String × Binding)} (h : r.names.Nodup)
      (horder : order.Perm r.bindings) {name : String} {b : Binding} (hb : r.get? name = some b) :
      Registry.get? ⟨order⟩ name = some b := by
    rw [← Registry.mem_bindings_iff (hnodup h horder), horder.mem_iff, Registry.mem_bindings_iff h, hb]
  constructor
  case calls =>
    intro name b hb
    exact ⟨calls_ofRegistry (hnodup h horder) (hfound h horder hb),
      calls_ofRegistry (hnodup h' horder') (hfound h' horder' (hget name ▸ hb))⟩
  case pages =>
    have hperm := horder.trans ((Registry.bindings_perm h h' hget).trans horder'.symm)
    exact fun jobs => pages_perm hperm (hnodup h horder)

end Pagewright.Page.Context

namespace Pagewright.Server

open Markup (Registration Registry RegistryUse)
open Page (Context)

namespace ComponentSpec

def registration (spec : ComponentSpec) : Registration := .registerCustom spec.name spec.path

def lastPath? (name : String) (specs : List ComponentSpec) : Option String :=
  (specs.filter fun spec => spec.name = name).getLast?.map path

@[simp] theorem last?_registration (name : String) (specs : List ComponentSpec) :
    Registration.last? name (specs.map registration) = (lastPath? name specs).map .custom := by
  unfold Registration.last? lastPath?
  rw [List.filter_map, List.getLast?_map, Option.map_map, Option.map_map]
  rfl

end ComponentSpec

namespace Config

theorem registry_eq (config : Config) (files : Files) : config.registry files =
    Registry.standard.after ((config.effectiveComponents files).map ComponentSpec.registration) := by
  rw [Registry.after, List.foldl_map]
  rfl

structure Registers (config : Config) (files : Files) (r : Registry) : Prop where
  last_wins : Registry.standard.LastWins
    ((config.effectiveComponents files).map ComponentSpec.registration) r
  /-- Each configured name is bound to the path of its last occurrence. -/
  configured : ∀ name path, ComponentSpec.lastPath? name config.components = some path →
    r.get? name = some (.custom path)
  /-- The other standard names are as they were. -/
  kept : ∀ name b, ComponentSpec.lastPath? name config.components = none →
    Registry.standard.get? name = some b → r.get? name = some b

@[simp] private theorem nodup_standard : Registry.standard.names.Nodup := by decide +kernel

theorem registry_registers (config : Config) (files : Files) :
    config.Registers files (config.registry files) := by
  have hwins := Registry.lastWins_after nodup_standard
    ((config.effectiveComponents files).map ComponentSpec.registration)
  rw [← config.registry_eq files] at hwins
  have hget (name : String) : (config.registry files).get? name =
      ((ComponentSpec.lastPath? name (config.effectiveComponents files)).map .custom).or
        (Registry.standard.get? name) := by
    rw [hwins.get, ComponentSpec.last?_registration]
  constructor
  case last_wins => exact hwins
  case configured =>
    intro name path hpath
    have hsome : config.components ≠ [] := fun hnil => by
      rw [hnil] at hpath
      exact nomatch hpath
    have heffective : config.effectiveComponents files = config.components :=
      if_pos (by simpa using hsome)
    rw [hget, heffective, hpath]
    rfl
  case kept =>
    intro name b hpath hb
    -- what is registered without being configured is no standard name
    have hcard : name ≠ "Card" := by
      rintro rfl
      have hnone : Registry.standard.get? "Card" = none := by decide +kernel
      exact nomatch hnone.symm.trans hb
    have hnone : ComponentSpec.lastPath? name (config.effectiveComponents files) = none := by
      unfold effectiveComponents
      split
      · exact hpath
      · split
        · simp [ComponentSpec.lastPath?, standardComponent, hcard.symm]
        · rfl
    rw [hget, hnone]
    exact hb

end Config

/-- A registry is a map in which the last registration of a name counts. That is so of every registry and
of its clones, each for its own registrations; registries that start alike and in which the same
registrations come last make contexts that are alike, for scripts to which the order of the globals
does not show; and a configuration registers its components over the standard names. -/
theorem last_registration_wins :
    (∀ base ∈ [Registry.empty, Registry.standard],
      (∀ calls, base.LastWins calls (base.after calls)) ∧
      (∀ uses, base.used uses = (Registry.histories uses).map base.after ∧
        ∀ later i, i < (base.used uses).length → (∀ call, .register i call ∉ later) →
          (base.used (uses ++ later))[i]? = (base.used uses)[i]?) ∧
      ∀ calls calls', (∀ name, Registration.last? name calls = Registration.last? name calls') →
        ∀ order order', order.Perm (base.after calls).bindings →
          order'.Perm (base.after calls').bindings →
          Context.Alike (base.after calls) (.ofRegistry ⟨order⟩) (.ofRegistry ⟨order'⟩)) ∧
    ∀ (config : Config) files, config.Registers files (config.registry files) := by
  refine ⟨fun base hbase => ?_, Config.registry_registers⟩
  have hnodup : base.names.Nodup := by
    have hall : ∀ base ∈ [Registry.empty, Registry.standard], base.names.Nodup := by decide +kernel
    exact hall base hbase
  refine ⟨Registry.lastWins_after hnodup, fun uses => ?_, ?_⟩
  · exact ⟨base.used_eq uses, fun later i => base.used_append uses later⟩
  · intro calls calls' hlast order order' horder horder'
    refine Context.alike_of_get? (Registry.after_nodup hnodup _) (Registry.after_nodup hnodup _)
      (fun name => ?_) horder horder'
    rw [Registry.after_get?, Registry.after_get?, hlast]

/-- Two elements in two orders, one of them registered several times, with a clone in between, and a
standard name that a configuration binds twice. -/
theorem last_registration_wins_box :
    let calls : List Registration := [.register "Box" false, .registerCustom "Row" "row.lua",
      .registerRawBody "Row", .register "Box" true]
    let calls' : List Registration := [.register "Box" true, .registerRawBody "Row"]
    let j : Page.Job := ⟨"return Row('<' .. Box{id = 1})", none, ⟨[]⟩⟩
    let config : Config :=
      { Config.standard with components := [⟨"Div", "a.lua"⟩, ⟨"Card", "b.lua"⟩, ⟨"Div", "c.lua"⟩] }
    (Registry.empty.after calls).get? "Box" = some (.element (.ofName "Box" true)) ∧
      (Registry.empty.used [.register 0 (.registerRawBody "Row"), .clone 0,
          .register 0 (.registerStyleHelper "Row")])[1]? =
        some (Registry.empty.after [.registerRawBody "Row"]) ∧
      (Context.ofRegistry ⟨(Registry.empty.after calls').bindings.reverse⟩).pages [j] =
        (Context.ofRegistry (Registry.empty.after calls)).pages [j] ∧
      (config.registry ⟨[]⟩).get? "Div" = some (.custom "c.lua") ∧
      (config.registry ⟨[]⟩).get? "Style" = some .styleSheet := by
  intro calls calls' j config
  obtain ⟨hregistries, hconfig⟩ := last_registration_wins
  obtain ⟨hwins, huses, hcontexts⟩ := hregistries .empty List.mem_cons_self
  refine ⟨?_, ?_, ?_, ?_, ?_⟩
  · rw [(hwins calls).get]
    rfl
  · have hlater : ∀ call, .register 1 call ∉ [RegistryUse.register 0 (.registerStyleHelper "Row")] := by
      simp
    have hclone := (huses [.register 0 (.registerRawBody "Row"), .clone 0]).2 _ 1 (by decide) hlater
    exact hclone.trans rfl
  · have hlast (name : String) : Registration.last? name calls = Registration.last? name calls' := by
      by_cases hbox : name = "Box"
      · subst hbox
        rfl
      · by_cases hrow : name = "Row"
        · subst hrow
          rfl
        · simp [calls, calls', Registration.last?, Registration.name, Ne.symm hbox, Ne.symm hrow]
    have halike := hcontexts calls calls' hlast _ _ (.refl _) (List.reverse_perm _)
    exact halike.pages [j] ⟨by decide +kernel, trivial⟩
  · exact (hconfig config ⟨[]⟩).configured "Div" "c.lua" (by decide +kernel)
  · exact (hconfig config ⟨[]⟩).kept "Style" .styleSheet (by decide +kernel) (by decide +kernel)

/-- A component that has lost its environment's name gets at the globals, and at the order in which two names
were registered. A standard name is there only where registrations go on from the standard registry. -/
theorem registration_order_shows :
    let card : Registration := .registerCustom "Card" "card.lua"
    let calls : List Registration := [card, .registerStyleHelper "A", .registerStyleHelper "B"]
    let calls' : List Registration := [card, .registerStyleHelper "B", .registerStyleHelper "A"]
    let source := "return function() _G = nil; for k in next, _G do if k == 'A' or k == 'B' then " ++
      "return {name = k, template = {}} end end end"
    let page (r : Registry) (script : String) : Option String :=
      (Page.Job.render ⟨script, none, ⟨[(["card.lua"], .file (Bytes.ofText source))]⟩⟩
        (.ofRegistry r)).result.toOption
    (∀ name, Registration.last? name calls = Registration.last? name calls') ∧
      page (Registry.empty.after calls) "return Card()" ≠
        page (Registry.empty.after calls') "return Card()" ∧
      page (Registry.empty.after []) "return Div()" = none ∧
      page (Registry.standard.after []) "return Div()" = some "<div></div>" := by
  intro card calls calls' source page
  refine ⟨fun name => ?_, by decide +kernel, by decide +kernel, by decide +kernel⟩
  by_cases hfirst : name = "A"
  · subst hfirst
    rfl
  · by_cases hsecond : name = "B"
    · subst hsecond
      rfl
    · simp [calls, calls', card, Registration.last?, Registration.name, Ne.symm hfirst,
        Ne.symm hsecond]

end Pagewright.Server
