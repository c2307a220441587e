import Pagewright.Proofs.AttributeOrder
import Pagewright.Proofs.ComponentCalls
import Pagewright.Proofs.ElementCalls
import Pagewright.Proofs.MirroredCalls
import Pagewright.Proofs.StyleRules

/-!
Components and tags on a store and on its mirror. What is written of a table does not show in which order
its keys stand, even if it is the globals.
-/
namespace Pagewright.Script

variable {α β γ δ : Type} {π : Nat ↪ Nat} {m : α → β} {n : γ → δ}

theorem Mirrored.recover {e : Eval α} {e' : Eval β} (h : Mirrored π m e e') {f : α → γ} {f' : β → δ}
    {b : γ} {k : Stop → Eval γ} {k' : Stop → Eval δ} (hf : ∀ a, f' (m a) = n (f a))
    (hexhausted : ∀ s, k .exhausted s = .error .exhausted s)
    (hk : ∀ e s, e ≠ .exhausted → k e s = .ok b s)
    (hk' : ∀ e s, e ≠ .exhausted → k' e s = .ok (n b) s) :
    Mirrored π n (tryCatch (f <$> e) k) (tryCatch (f' <$> e') k') := by
  intro s s' hs
  have hends := h s s' hs
  cases hr : e s with
  | ok a t =>
    rw [hr] at hends
    generalize hr' : e' s' = r' at hends
    cases hends with
    | ok a ht =>
      rw [tryCatch_ok hr, tryCatch_ok hr', hf]
      exact .ok _ ht
  | error stop t =>
    rw [hr] at hends
    generalize hr' : e' s' = r' at hends
    rw [tryCatch_error hr]
    cases hends with
    | raised v ht =>
      rw [tryCatch_error hr', hk _ _ Stop.noConfusion, hk' _ _ Stop.noConfusion]
      exact .ok _ ht
    | fault fault ht =>
      rw [tryCatch_error hr', hk _ _ Stop.noConfusion, hk' _ _ Stop.noConfusion]
      exact .ok _ ht
    | exhausted =>
      rw [hexhausted]
      exact .exhausted _ _

theorem report_agreed (level : Level) (text : String) :
    Agreed π (Eval.report level text) (Eval.report level text) :=
  fun _ _ hs => .ok PUnit.unit (hs.report _)

theorem Store.Mirrors.pairs_perm {s s' : Store} (hs : s.Mirrors π s') (r : Nat) :
    (s'.heap.table r).pairs.Perm ((s.heap.table r).pairs.map (movedEntry π)) := by
  rw [← Table.pairs_moved]
  exact (hs.heap.tables r).pairs.perm.symm

end Pagewright.Script

namespace Pagewright.Markup

open Script Script.Library

variable {α β : Type} {π : Nat ↪ Nat} {call call' : Callback} {s s' : Store}

@[simp] theorem valueText?_moved (v : Value) : valueText? (v.moved π) = valueText? v := by
  cases v <;> rfl

@[simp] theorem filterMap_valueText?_moved (vs : List Value) :
    (vs.map (·.moved π)).filterMap valueText? = vs.filterMap valueText? := by
  rw [List.filterMap_map]
  exact List.filterMap_congr fun v _ => valueText?_moved v

/-! ### Components -/

theorem ComponentDefinition.ofResult?_moved (hs : s.Mirrors π s') (result : Value) :
    ofResult? s'.heap.table (result.moved π) = ofResult? s.heap.table result := by
  have hfield (r : Nat) (key : String) : (s'.heap.table r).get (Value.ofText key) =
      ((s.heap.table r).get (Value.ofText key)).moved π := hs.heap.get r (.string _)
  cases result with
  | table r =>
    simp only [ofResult?, Value.moved_table, hfield, valueText?_moved]
    cases valueText? ((s.heap.table r).get (Value.ofText "name")) with
    | none => rfl
    | some name =>
      cases (s.heap.table r).get (Value.ofText "template") with
      | table t =>
        dsimp only
        refine congrArg (fun content => some (ComponentDefinition.mk name _ content)) ?_
        cases (s.heap.table t).get (Value.ofText "content") with
        | table c => exact (congrArg _ (hs.heap.sequence c)).trans (filterMap_valueText?_moved _)
        | _ => rfl
      | _ => rfl
  | _ => rfl

namespace Component

private theorem attempt_mirrored {m : α → β} {e : Eval α} {e' : Eval β} (h : Mirrored π m e e') :
    Mirrored π (Option.map m) (attempt e) (attempt e') := by
  refine h.recover (b := none) (fun _ => rfl) (fun _ => rfl) ?_ ?_
  all_goals
    intro stop s hstop
    cases stop with
    | exhausted => exact absurd rfl hstop
    | _ => rfl

variable (hcall : CallsMirrored π call call')
include hcall

theorem attempt_call_mirrored (f : Value) (args : List Value) :
    Mirrored π (Option.map (·.moved π)) (return (← attempt (call f args)).map (·.headD .nil))
      (return (← attempt (call' (f.moved π) (args.map (·.moved π)))).map (·.headD .nil)) := by
  refine (attempt_mirrored (hcall f args)).bind fun vs => .pure ?_
  cases vs with
  | none => rfl
  | some vs => exact congrArg some (Value.headD_map_moved vs)

theorem load_mirrored (source loader : String) :
    Mirrored π (Option.map (·.moved π)) (load call source loader)
      (load call' source loader) := by
  refine Chunk.newEnvironment_mirrored.bind fun env => ?_
  refine (Chunk.loadValue_mirrored _ _ env).bind fun f => ?_
  cases f with
  | error e => exact .pure rfl
  | ok f => exact attempt_call_mirrored hcall f []

private theorem apply_mirrored (f : Value) (props : Option Value) :
    Mirrored π (Option.map (·.moved π)) (apply call f props)
      (apply call' (f.moved π) (props.map (·.moved π))) := by
  have hrest (v : Value) := attempt_call_mirrored hcall f [v]
  have hempty := newTable_mirrored (π := π) Table.empty
  rw [Table.empty_moved] at hempty
  cases props with
  | none => exact hempty.bind hrest
  | some v =>
    cases v with
    | table r => exact hrest (.table r)
    | _ => exact hempty.bind hrest

private theorem define_agreed (loader : String) (props : Option Value) :
    Agreed π (define call loader props) (define call' loader (props.map (·.moved π))) := by
  refine .get_bind fun s s' hs => ?_
  rw [hs.files]
  split
  · exact .pure rfl
  · refine (load_mirrored hcall _ loader).bind fun f => ?_
    cases f with
    | none => exact .pure rfl
    | some f =>
      dsimp only [Option.map]
      rw [f.isFunction_moved, f.kindName_moved]
      refine .ite (.pure rfl) ((apply_mirrored hcall f props).bind fun result => ?_)
      cases result with
      | none => exact .pure rfl
      | some result =>
        refine .get_bind fun t t' ht => ?_
        dsimp only [Option.map]
        rw [ComponentDefinition.ofResult?_moved ht]
        split <;> exact .pure rfl

theorem render_agreed (name loader : String) (props : Option Value) :
    Agreed π (render call name loader props)
      (render call' name loader (props.map (·.moved π))) := by
  refine (define_agreed hcall loader props).bind fun d => ?_
  cases d with
  | ok d => exact .pure rfl
  | error f => exact (report_agreed _ _).bind fun _ => .pure rfl

end Component

/-! ### Elements and style sheets -/

@[simp] private theorem attribute?_moved (p : Value × Value) :
    Arguments.attribute? (movedEntry π p) = Arguments.attribute? p := by
  obtain ⟨k, v⟩ := p
  cases k with
  | string s => simp [Arguments.attribute?, movedEntry]
  | _ => rfl

@[simp] private theorem filterMap_attribute?_moved (pairs : List (Value × Value)) :
    (pairs.map (movedEntry π)).filterMap Arguments.attribute? =
      pairs.filterMap Arguments.attribute? := by
  rw [List.filterMap_map]
  exact List.filterMap_congr fun p _ => attribute?_moved p

namespace Arguments

private theorem collect_of_sameByKey {pairs order : List (Value × Value)}
    (h : Table.SameByKey pairs order) : collect pairs = collect order := by
  apply eq_of_lookup (ascending_collect pairs) (ascending_collect order)
  intro key
  have hshown (ps : List (Value × Value)) : ps.filterMap (textFor key) =
      (ps.filter fun p => Table.shownKey p.1 = Value.ofText key).filterMap (textFor key) := by
    rw [List.filterMap_filter]
    refine List.filterMap_congr fun p _ => ?_
    split
    · rfl
    · rename_i hother
      refine Option.eq_none_iff_forall_ne_some.mpr fun text htext => hother ?_
      obtain ⟨s, hs, hkey, -⟩ := attribute?_eq_some_iff.mp (textFor_eq_some_iff.mp htext)
      rw [hs, ← hkey]
      exact decide_eq_true rfl
  rw [lookup_collect, lookup_collect, hshown pairs, hshown order, h]

private theorem contribution_moved (hs : s.Mirrors π s') (v : Value) :
    contribution s'.heap.table (v.moved π) = contribution s.heap.table v := by
  cases v with
  | table r => exact (congrArg _ (hs.heap.sequence r)).trans (filterMap_valueText?_moved _)
  | _ => rfl

private theorem flatMap_contribution_moved (hs : s.Mirrors π s') (args : List Value) :
    (args.map (·.moved π)).flatMap (contribution s'.heap.table) =
      args.flatMap (contribution s.heap.table) := by
  rw [List.flatMap_map]
  exact List.flatMap_congr fun v _ => contribution_moved hs v

private theorem collect_moved (hs : s.Mirrors π s') (r : Nat) :
    collect (s'.heap.table r).pairs = collect (s.heap.table r).pairs := by
  rw [← collect_of_sameByKey (hs.heap.tables r).pairs, Table.pairs_moved]
  unfold collect
  rw [filterMap_attribute?_moved]

private theorem holdsAttributes_moved (hs : s.Mirrors π s') (r : Nat) (rest : List Value) :
    holdsAttributes (s'.heap.table r) (rest.map (·.moved π)) =
      holdsAttributes (s.heap.table r) rest := by
  have hkeys : hasStringKey (s'.heap.table r) = hasStringKey (s.heap.table r) := by
    unfold hasStringKey
    rw [(hs.pairs_perm r).any_eq, List.any_map]
    congr 1
    funext ⟨k, v⟩
    cases k <;> rfl
  cases rest with
  | nil => exact hkeys
  | cons v rest => cases v <;> first | exact hkeys | rfl

theorem classify_moved (hs : s.Mirrors π s') (args : List Value) :
    classify s'.heap.table (args.map (·.moved π)) = classify s.heap.table args := by
  have hcontent (vs : List Value) := flatMap_contribution_moved hs vs
  cases args with
  | nil => rfl
  | cons v rest =>
    cases v with
    | table r =>
      change (if holdsAttributes (s'.heap.table r) (rest.map (·.moved π)) then
          Arguments.mk (collect (s'.heap.table r).pairs)
            ((rest.map (·.moved π)).flatMap (contribution s'.heap.table))
        else ⟨[], ((Value.table r :: rest).map (·.moved π)).flatMap
          (contribution s'.heap.table)⟩) = _
      rw [holdsAttributes_moved hs, collect_moved hs, hcontent, hcontent]
      rfl
    | _ => exact congrArg (Arguments.mk []) (hcontent _)

end Arguments

theorem ElementSpec.render_moved (hs : s.Mirrors π s') (e : ElementSpec) (args : List Value) :
    e.render s'.heap.table (args.map (·.moved π)) = e.render s.heap.table args := by
  have hbody : e.TakesBody (args.map (·.moved π)) → e.TakesBody args := by
    rintro ⟨hraw, body, hargs⟩
    obtain ⟨v, rfl, hv⟩ := List.map_eq_singleton_iff.mp hargs
    exact ⟨hraw, body, congrArg ([·]) (Value.moved_injective hv)⟩
  by_cases hnone : args = []
  · rw [hnone]
    rfl
  · by_cases htakes : e.TakesBody args
    · obtain ⟨hraw, body, rfl⟩ := htakes
      exact (render_body _ hraw body).trans (render_body _ hraw body).symm
    · rw [e.render_of_not_body _ hnone htakes,
        e.render_of_not_body _ (mt List.map_eq_nil_iff.mp hnone) (mt hbody htakes),
        Arguments.classify_moved hs]

theorem StyleSheet.render?_moved (hs : s.Mirrors π s') (args : List Value) :
    render? s'.heap.table (args.map (·.moved π)) = render? s.heap.table args := by
  have hblocks (pairs : List (Value × Value)) :
      blocks (pairs.map (movedEntry π)) = blocks pairs := by
    unfold blocks
    rw [List.filterMap_map]
    refine congrArg (List.mergeSort · _) (List.filterMap_congr ?_)
    rintro ⟨k, v⟩ -
    cases k with
    | string selector => simp [block?, movedEntry]
    | _ => rfl
  have hpairs (r : Nat) : ofPairs (s'.heap.table r).pairs = ofPairs (s.heap.table r).pairs :=
    congrArg ("\n".intercalate ·) ((blocks_order (hs.pairs_perm r)).trans (hblocks _))
  cases args with
  | nil => rfl
  | cons v rest =>
    cases v with
    | table r => exact congrArg some (hpairs r)
    | _ => rfl

theorem Binding.call_mirrored (hcall : CallsMirrored π call call') (name : String) (b : Binding)
    (args : List Value) :
    Mirrored π (·.moved π) (b.call call name args) (b.call call' name (args.map (·.moved π))) := by
  refine .get_bind fun s s' hs => ?_
  cases b with
  | element spec => exact .pure (congrArg Value.ofText (spec.render_moved hs args))
  | custom loader =>
    have hrendered := (Component.render_agreed hcall name loader args.head?).bind
      (n := (·.moved π)) fun text => .pure (a := Value.ofText text) rfl
    rw [← List.head?_map] at hrendered
    exact hrendered
  | styleSheet =>
    refine .pure ?_
    rw [StyleSheet.render?_moved hs]
    cases StyleSheet.render? s.heap.table args <;> rfl

end Pagewright.Markup
