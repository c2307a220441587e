import Pagewright.Proofs.MirroredArguments

/-! Library functions for lists on a store and on its mirror. -/
namespace Pagewright.Script.Library

variable {π : Nat ↪ Nat} {call call' : Callback}

theorem newTable_mirrored (t : Table) :
    Mirrored π (·.moved π) (Eval.newTable t) (Eval.newTable (t.moved π)) := by
  refine Mirrored.bind (m := fun r => r) (.onHeap fun g h h' hh => ⟨?_, hh.newTable t⟩)
    fun r => .pure rfl
  exact hh.newTable_fst t (t.moved π)

theorem listArg_mirrored (f : Builtin) (args : List Value) (i : Nat) (events : List Bytes) :
    Mirrored π (·.moved π) (listArg f args i events)
      (listArg f (args.map (·.moved π)) i events) := by
  refine .get_bind fun s s' hs => ?_
  have hother (v : Value) : Mirrored π (·.moved π)
      (if (s.metatable? v).isSome && events.all fun e => !(s.metamethod v e).isNil then return v
        else bad f i ("table expected, got " ++ given args i))
      (if (s'.metatable? (v.moved π)).isSome &&
          events.all fun e => !(s'.metamethod (v.moved π) e).isNil then return v.moved π
        else bad f i ("table expected, got " ++ given args i)) := by
    simp only [hs.metatable?, hs.metamethod, Value.isNil_moved]
    exact .ite (.pure rfl) (bad_mirrored f i _)
  rw [optArg_moved, given_moved]
  cases optArg args i with
  | table r => exact .pure rfl
  | _ => exact hother _

/-! ### Items -/

section Items

variable (hcall : CallsMirrored π call call')
include hcall

private theorem joinFrom_agreed (t : Value) (sep : Bytes) (last : Int) (fuel : Nat) (i : Int)
    (out : Bytes) :
    Agreed π (joinFrom call t sep last fuel i out)
      (joinFrom call' (t.moved π) sep last fuel i out) := by
  induction fuel generalizing i out with
  | zero => exact .pure rfl
  | succ fuel ih =>
    refine (fieldAt_mirrored hcall t i).bind fun v => ?_
    rw [v.toBytes?_moved]
    split
    · exact .fault _
    · exact .ite (.pure rfl) (ih _ _)

private theorem concatItems_mirrored (args : List Value) :
    Mirrored π (List.map (·.moved π)) (concatItems call args)
      (concatItems call' (args.map (·.moved π))) := by
  refine (listArg_mirrored _ args 0 _).bind fun t => (lengthOf_agreed hcall t).bind fun n => ?_
  refine (bytesOr_agreed _ args 1 _).bind fun sep => (integerOr_agreed _ args 2 _).bind fun i => ?_
  refine (integerOr_agreed _ args 3 _).bind fun j => .ite (.pure rfl) ?_
  exact (joinFrom_agreed hcall t sep j _ i []).bind fun text => .pure rfl

theorem copyItems_agreed (source target : Value) (step : Int) (n : Nat) (i j : Int) :
    Agreed π (copyItems call source target step n i j)
      (copyItems call' (source.moved π) (target.moved π) step n i j) := by
  induction n generalizing i j with
  | zero => exact .pure rfl
  | succ n ih =>
    exact (fieldAt_mirrored hcall source i).bind fun v =>
      (putAt_agreed hcall target j v).bind fun _ => ih _ _

private theorem insert_mirrored (args : List Value) :
    Mirrored π (List.map (·.moved π)) (insert call args)
      (insert call' (args.map (·.moved π))) := by
  refine (listArg_mirrored _ args 0 _).bind fun t => (lengthOf_agreed hcall t).bind fun n => ?_
  dsimp only
  rw [← List.map_drop]
  match args.drop 1 with
  | [] => exact .fault _
  | [v] => exact (putAt_agreed hcall t _ v).bind fun _ => .pure rfl
  | [_, v] =>
    refine (integerArg_agreed _ args 1).bind fun pos => .ite (bad_mirrored _ 1 _) ?_
    exact (copyItems_agreed hcall t t _ _ _ _).bind fun _ =>
      (putAt_agreed hcall t pos v).bind fun _ => .pure rfl
  | _ :: _ :: _ :: _ => exact .fault _

private theorem remove_mirrored (args : List Value) :
    Mirrored π (List.map (·.moved π)) (remove call args)
      (remove call' (args.map (·.moved π))) := by
  refine (listArg_mirrored _ args 0 _).bind fun t => (lengthOf_agreed hcall t).bind fun size => ?_
  refine (integerOr_agreed _ args 1 _).bind fun pos => ?_
  rw [arg?_moved, Option.isSome_map]
  refine .ite (bad_mirrored _ 1 _) ((fieldAt_mirrored hcall t pos).bind fun v => ?_)
  exact (copyItems_agreed hcall t t _ _ _ _).bind fun _ =>
    (putAt_agreed hcall t _ .nil).bind fun _ => .pure rfl

omit hcall in
@[simp] private theorem targetIndex_moved (args : List Value) :
    targetIndex (args.map (·.moved π)) = targetIndex args := by
  unfold targetIndex
  rw [optArg_moved]
  cases optArg args 4 <;> rfl

private theorem move_mirrored (args : List Value) :
    Mirrored π (List.map (·.moved π)) (move call args) (move call' (args.map (·.moved π))) := by
  unfold move
  dsimp only
  rw [targetIndex_moved]
  refine (listArg_mirrored _ args 0 _).bind fun source => (integerArg_agreed _ args 1).bind fun i => ?_
  refine (integerArg_agreed _ args 2).bind fun e => (integerArg_agreed _ args 3).bind fun j => ?_
  refine (listArg_mirrored _ args _ _).bind fun target => .ite (.pure rfl) ?_
  refine .ite (bad_mirrored _ 2 _) (.ite (bad_mirrored _ 3 _) ?_)
  simp only [ne_eq, Value.moved_inj]
  exact .ite ((copyItems_agreed hcall source target _ _ _ _).bind fun _ => .pure rfl)
    ((copyItems_agreed hcall source target _ _ _ _).bind fun _ => .pure rfl)

private theorem unpack_mirrored (args : List Value) :
    Mirrored π (List.map (·.moved π)) (unpack call args)
      (unpack call' (args.map (·.moved π))) := by
  refine (integerOr_agreed _ args 1 _).bind fun i => ?_
  have hrest (j : Int) :
      Mirrored π (List.map (·.moved π))
        (if j < i then return []
          else if mostResults ≤ (j - i).toNat then Eval.fault .tooManyResults
          else (List.range ((j - i).toNat + 1)).mapM fun (k : Nat) =>
            fieldAt call (optArg args 0) (i + k))
        (if j < i then return []
          else if mostResults ≤ (j - i).toNat then Eval.fault .tooManyResults
          else (List.range ((j - i).toNat + 1)).mapM fun (k : Nat) =>
            fieldAt call' ((optArg args 0).moved π) (i + k)) :=
    .ite (.pure rfl) (.ite (.fault _) (.mapM fun k => fieldAt_mirrored hcall _ _))
  simp only [optArg_moved]
  cases optArg args 2 with
  | nil => exact (lengthOf_agreed hcall _).bind hrest
  | _ => exact (integerArg_agreed _ args 2).bind hrest

end Items

/-! ### Orders -/

def OrdersMirrored (π : Nat ↪ Nat) (before before' : Value → Value → Eval Bool) : Prop :=
  ∀ x y : Value, Agreed π (before x y) (before' (x.moved π) (y.moved π))

namespace Sorter

variable {before before' : Value → Value → Eval Bool} (hcall : CallsMirrored π call call')
  (hbefore : OrdersMirrored π before before') (t : Value)
include hcall

theorem swap_agreed (x y : Value) (i j : Int) :
    Agreed π (do putAt call t i x; putAt call t j y)
      (do putAt call' (t.moved π) i (x.moved π); putAt call' (t.moved π) j (y.moved π)) :=
  (putAt_agreed hcall t i x).bind fun _ => putAt_agreed hcall t j y

include hbefore

private theorem orderTwo_agreed (i j : Nat) :
    Agreed π (orderTwo call ⟨t, before⟩ i j) (orderTwo call' ⟨t.moved π, before'⟩ i j) := by
  refine (fieldAt_mirrored hcall t _).bind fun x => (fieldAt_mirrored hcall t _).bind fun y => ?_
  exact (hbefore y x).bind fun b => .ite (swap_agreed hcall t y x _ _) (.pure rfl)

private theorem placeMiddle_agreed (lo p up : Nat) :
    Agreed π (placeMiddle call ⟨t, before⟩ lo p up)
      (placeMiddle call' ⟨t.moved π, before'⟩ lo p up) := by
  refine (fieldAt_mirrored hcall t _).bind fun x =>
    (fieldAt_mirrored hcall t _).bind fun least => ?_
  refine (hbefore x least).bind fun b => .ite (swap_agreed hcall t least x _ _) ?_
  refine (fieldAt_mirrored hcall t _).bind fun greatest => ?_
  exact (hbefore greatest x).bind fun b => .ite (swap_agreed hcall t greatest x _ _) (.pure rfl)

private theorem upward_mirrored (pivot : Value) (last fuel i : Nat) :
    Mirrored π (Prod.map id (·.moved π)) (upward call ⟨t, before⟩ pivot last fuel i)
      (upward call' ⟨t.moved π, before'⟩ (pivot.moved π) last fuel i) := by
  induction fuel generalizing i with
  | zero => exact .fault _
  | succ fuel ih =>
    refine (fieldAt_mirrored hcall t _).bind fun x => (hbefore x pivot).bind fun b => ?_
    exact .ite (.ite (.fault _) (ih _)) (.pure rfl)

private theorem downward_mirrored (pivot : Value) (first fuel j : Nat) :
    Mirrored π (Prod.map id (·.moved π)) (downward call ⟨t, before⟩ pivot first fuel j)
      (downward call' ⟨t.moved π, before'⟩ (pivot.moved π) first fuel j) := by
  induction fuel generalizing j with
  | zero => exact .fault _
  | succ fuel ih =>
    refine (fieldAt_mirrored hcall t _).bind fun x => (hbefore pivot x).bind fun b => ?_
    exact .ite (.ite (.fault _) (ih _)) (.pure rfl)

private theorem partition_agreed (pivot : Value) (up fuel i j : Nat) :
    Agreed π (partition call ⟨t, before⟩ pivot up fuel i j)
      (partition call' ⟨t.moved π, before'⟩ (pivot.moved π) up fuel i j) := by
  induction fuel generalizing i j with
  | zero => exact .fault _
  | succ fuel ih =>
    refine (upward_mirrored hcall hbefore t pivot _ _ _).bind fun ⟨i, x⟩ => ?_
    refine (downward_mirrored hcall hbefore t pivot _ _ _).bind fun ⟨j, y⟩ => ?_
    refine .ite ?_ ?_
    · exact (putAt_agreed hcall t _ x).bind fun _ => (putAt_agreed hcall t _ pivot).bind fun _ =>
        .pure rfl
    · exact (putAt_agreed hcall t _ y).bind fun _ => (putAt_agreed hcall t _ x).bind fun _ => ih _ _

theorem sortBetween_agreed (fuel lo up : Nat) :
    Agreed π (sortBetween call ⟨t, before⟩ fuel lo up)
      (sortBetween call' ⟨t.moved π, before'⟩ fuel lo up) := by
  induction fuel generalizing lo up with
  | zero => exact .pure rfl
  | succ fuel ih =>
    unfold sortBetween
    refine .ite (.pure rfl) ((orderTwo_agreed hcall hbefore t lo up).bind fun _ => ?_)
    refine .ite (.pure rfl) ((placeMiddle_agreed hcall hbefore t _ _ _).bind fun _ => ?_)
    refine .ite (.pure rfl) ?_
    refine (fieldAt_mirrored hcall t _).bind fun pivot =>
      (fieldAt_mirrored hcall t _).bind fun last => (putAt_agreed hcall t _ last).bind fun _ =>
      (putAt_agreed hcall t _ pivot).bind fun _ => ?_
    refine (partition_agreed hcall hbefore t pivot _ _ _ _).bind fun p => ?_
    -- both parts are sorted, whichever comes first
    exact .ite ((ih _ _).bind fun _ => ih _ _) ((ih _ _).bind fun _ => ih _ _)

end Sorter

section Tables

variable (hcall : CallsMirrored π call call')
include hcall

private theorem sort_mirrored (args : List Value) :
    Mirrored π (List.map (·.moved π)) (sort call args) (sort call' (args.map (·.moved π))) := by
  refine (listArg_mirrored _ args 0 _).bind fun t => (lengthOf_agreed hcall t).bind fun n => ?_
  refine .ite (.pure rfl) (.ite (bad_mirrored _ 0 _) ?_)
  have hsorted {before before' : Value → Value → Eval Bool}
      (hbefore : OrdersMirrored π before before') :
      Mirrored π (List.map (Value.moved π ·))
        (do Sorter.sortBetween call ⟨t, before⟩ n.toNat 1 n.toNat; return [])
        (do Sorter.sortBetween call' ⟨t.moved π, before'⟩ n.toNat 1 n.toNat; return []) :=
    (Sorter.sortBetween_agreed hcall hbefore t _ _ _).bind fun _ => .pure rfl
  dsimp only
  rw [optArg_moved]
  have hgiven : Mirrored π (List.map (Value.moved π ·))
      (functionArg (.table .sort) args 1 >>= fun f => do
        Sorter.sortBetween call
          ⟨t, fun x y => do return ((← call f [x, y]).headD .nil).truthy⟩ n.toNat 1 n.toNat
        return [])
      (functionArg (.table .sort) (args.map (·.moved π)) 1 >>= fun f => do
        Sorter.sortBetween call'
          ⟨t.moved π, fun x y => do return ((← call' f [x, y]).headD .nil).truthy⟩
          n.toNat 1 n.toNat
        return []) :=
    (functionArg_mirrored _ args 1).bind fun f => hsorted fun x y =>
      (hcall f [x, y]).bind fun vs => .pure (by rw [Value.headD_map_moved, Value.truthy_moved])
  cases optArg args 1 with
  | nil =>
    simp only [pure_bind]
    refine hsorted fun x y => .get_bind fun s s' hs => ?_
    rw [hs.below]
    exact (settle_mirrored hcall _).bind fun v => .pure (by rw [v.truthy_moved])
  | _ =>
    simp only [pure_bind]
    exact hgiven

theorem table_mirrored (f : TableFunction) (args : List Value) :
    Mirrored π (List.map (·.moved π)) (table call f args)
      (table call' f (args.map (·.moved π))) := by
  cases f with
  | concat => exact concatItems_mirrored hcall args
  | insert => exact insert_mirrored hcall args
  | move => exact move_mirrored hcall args
  | pack =>
    have htable : (Table.ofList (args.map (·.moved π))).set (Value.ofText "n")
        (ofInt (args.map (·.moved π)).length) =
        ((Table.ofList args).set (Value.ofText "n") (ofInt args.length)).moved π := by
      have hlist : Table.ofList (args.map (·.moved π)) = (Table.ofList args).moved π := by
        simp [Table.ofList, Table.moved]
      rw [hlist, List.length_map]
      exact Table.set_moved (Value.ofText "n") (ofInt args.length)
    unfold table
    dsimp only
    rw [htable]
    exact (newTable_mirrored _).bind fun v => .pure rfl
  | remove => exact remove_mirrored hcall args
  | sort => exact sort_mirrored hcall args
  | unpack => exact unpack_mirrored hcall args

end Tables

end Pagewright.Script.Library
