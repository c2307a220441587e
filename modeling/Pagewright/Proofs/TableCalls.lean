import Pagewright.Proofs.LibraryArguments

/-! Library functions for lists in a confined store. A list that is not the globals may change. -/
namespace Pagewright.Script.Library

variable {g : Globals} {w : Set Nat} {call call' : Callback}

theorem listArg_keeps (f : Builtin) {args : List Value} {i : Nat} {Q : Value → Prop}
    (h : Q (optArg args i)) (events : List Bytes) : Keeps g w (listArg f args i events) Q := by
  refine Same.get.bind fun s _ => ?_
  split
  · exact .pure h
  · exact Same.ite (fun _ => .pure h) fun _ => bad_keeps f i _

private theorem joinFrom_same {t : Value} (h : t.Within w) (sep : Bytes) (last : Int) (fuel : Nat)
    (i : Int) (out : Bytes) :
    Same g w (joinFrom call t sep last fuel i out) (joinFrom call' t sep last fuel i out)
      fun _ => True := by
  induction fuel generalizing i out with
  | zero => exact .pure trivial
  | succ fuel ih =>
      refine (fieldAt_same h i).bind fun v _ => ?_
      split
      · exact Same.fault _
      · exact Same.ite (fun _ => .pure trivial) fun _ => ih _ _

private theorem concatItems_same {args : List Value} (h : AllWithin w args) :
    Same g w (concatItems call args) (concatItems call' args) (AllWithin w) := by
  refine (listArg_keeps _ (optArg_within h 0) _).bind fun t ht => ?_
  refine (lengthOf_same ht).bind fun n _ => ?_
  refine (bytesOr_keeps _ args 1 _).bind fun sep _ => (integerOr_keeps _ args 2 _).bind fun i _ => ?_
  refine (integerOr_keeps _ args 3 _).bind fun j _ => ?_
  refine Same.ite (fun _ => .pure (.one trivial)) fun _ => ?_
  exact (joinFrom_same ht _ _ _ _ _).bind fun _ _ => .pure (.one trivial)

theorem copyItems_same {source target : Value} (hs : source.Within w) (ht : target.Changeable w)
    (step : Int) (n : Nat) (i j : Int) :
    Same g w (copyItems call source target step n i j) (copyItems call' source target step n i j)
      fun _ => True := by
  induction n generalizing i j with
  | zero => exact .pure trivial
  | succ n ih =>
      exact (fieldAt_same hs i).bind fun v hv => (putAt_same ht hv j).bind fun _ _ => ih _ _

private theorem insert_same {args : List Value} (h : AllWithin w args)
    (hlist : (optArg args 0).Changeable w) :
    Same g w (insert call args) (insert call' args) (AllWithin w) := by
  have hrest := h.drop 1
  refine (listArg_keeps _ hlist _).bind fun t ht => (lengthOf_same ht.within).bind fun n _ => ?_
  dsimp only
  split
  · rename_i v heq
    rw [heq] at hrest
    exact (putAt_same ht (hrest v List.mem_cons_self) _).bind fun _ _ => .pure allWithin_nil
  · rename_i v heq
    rw [heq] at hrest
    refine (integerArg_keeps _ args 1).bind fun pos _ => Same.ite (fun _ => bad_keeps _ 1 _) fun _ => ?_
    refine (copyItems_same ht.within ht _ _ _ _).bind fun _ _ => ?_
    exact (putAt_same ht (allWithin_cons.mp hrest).2.headD _).bind fun _ _ => .pure allWithin_nil
  · exact Same.fault _

private theorem remove_same {args : List Value} (hlist : (optArg args 0).Changeable w) :
    Same g w (remove call args) (remove call' args) (AllWithin w) := by
  refine (listArg_keeps _ hlist _).bind fun t ht => (lengthOf_same ht.within).bind fun size _ => ?_
  refine (integerOr_keeps _ args 1 _).bind fun pos _ => Same.ite (fun _ => bad_keeps _ 1 _) fun _ => ?_
  refine (fieldAt_same ht.within pos).bind fun v hv => ?_
  refine (copyItems_same ht.within ht _ _ _ _).bind fun _ _ => ?_
  exact (putAt_same (v := .nil) ht trivial _).bind fun _ _ => .pure (.one hv)

private theorem move_same {args : List Value} (h : AllWithin w args)
    (htarget : (optArg args (targetIndex args)).Changeable w) :
    Same g w (move call args) (move call' args) (AllWithin w) := by
  refine (listArg_keeps _ (optArg_within h 0) _).bind fun source hs => ?_
  refine (integerArg_keeps _ args 1).bind fun i _ => ?_
  refine (integerArg_keeps _ args 2).bind fun e _ => (integerArg_keeps _ args 3).bind fun j _ => ?_
  refine (listArg_keeps _ htarget _).bind fun target ht =>
    Same.ite (fun _ => .pure (.one ht.within)) fun _ => ?_
  refine Same.ite (fun _ => bad_keeps _ 2 _) fun _ => Same.ite (fun _ => bad_keeps _ 3 _) fun _ => ?_
  exact Same.ite
    (fun _ => (copyItems_same hs ht _ _ _ _).bind fun _ _ => .pure (.one ht.within))
    fun _ => (copyItems_same hs ht _ _ _ _).bind fun _ _ => .pure (.one ht.within)

private theorem unpack_same {args : List Value} (h : AllWithin w args) :
    Same g w (unpack call args) (unpack call' args) (AllWithin w) := by
  have ht := optArg_within h 0
  refine (integerOr_keeps _ args 1 _).bind fun i _ => ?_
  have hrest (j : Int) (_ : True) :
      Same g w
        (if j < i then return []
          else if mostResults ≤ (j - i).toNat then Eval.fault .tooManyResults
          else (List.range ((j - i).toNat + 1)).mapM fun (k : Nat) =>
            fieldAt call (optArg args 0) (i + k))
        (if j < i then return []
          else if mostResults ≤ (j - i).toNat then Eval.fault .tooManyResults
          else (List.range ((j - i).toNat + 1)).mapM fun (k : Nat) =>
            fieldAt call' (optArg args 0) (i + k)) (AllWithin w) :=
    Same.ite (fun _ => .pure allWithin_nil) fun _ => Same.ite (fun _ => Same.fault _) fun _ =>
      Same.mapM fun k _ => fieldAt_same ht _
  dsimp only
  split
  · exact (lengthOf_same ht).bind hrest
  · exact (integerArg_keeps _ args 2).bind hrest

def OrdersAgree (g : Globals) (w : Set Nat) (before before' : Value → Value → Eval Bool) : Prop :=
  ∀ w', w ⊆ w' → ∀ x y : Value, x.Within w' → y.Within w' →
    Agrees g w' (before x y) (before' x y) fun _ _ => True

theorem OrdersAgree.mono {w' : Set Nat} {before before' : Value → Value → Eval Bool}
    (h : OrdersAgree g w before before') (hw : w ⊆ w') : OrdersAgree g w' before before' :=
  fun w'' hw' => h w'' (hw.trans hw')

namespace Sorter

variable {t : Value} {before before' : Value → Value → Eval Bool}

theorem swap_agrees (ht : t.Changeable w) {x y : Value} (hx : x.Within w) (hy : y.Within w)
    (i j : Int) :
    Agrees g w (do putAt call t i x; putAt call t j y) (do putAt call' t i x; putAt call' t j y)
      fun _ _ => True :=
  Same.agrees ((putAt_same ht hx i).bind fun _ _ => putAt_same ht hy j)

private theorem orderTwo_agrees (ht : t.Changeable w) (hbefore : OrdersAgree g w before before')
    (i j : Nat) :
    Agrees g w (orderTwo call ⟨t, before⟩ i j) (orderTwo call' ⟨t, before'⟩ i j)
      fun _ _ => True := by
  refine (fieldAt_same ht.within _).bindAgrees fun x hx => ?_
  refine (fieldAt_same ht.within _).bindAgrees fun y hy => ?_
  refine (hbefore w subset_rfl y x hy hx).bind fun w' hw b _ => ?_
  split
  · exact swap_agrees (ht.mono hw) (hy.mono hw) (hx.mono hw) _ _
  · exact .pure trivial

private theorem placeMiddle_agrees (ht : t.Changeable w) (hbefore : OrdersAgree g w before before')
    (lo p up : Nat) :
    Agrees g w (placeMiddle call ⟨t, before⟩ lo p up)
      (placeMiddle call' ⟨t, before'⟩ lo p up) fun _ _ => True := by
  refine (fieldAt_same ht.within _).bindAgrees fun x hx => ?_
  refine (fieldAt_same ht.within _).bindAgrees fun least hl => ?_
  refine (hbefore w subset_rfl x least hx hl).bind fun w₁ hw₁ b _ => ?_
  split
  · exact swap_agrees (ht.mono hw₁) (hl.mono hw₁) (hx.mono hw₁) _ _
  · refine (fieldAt_same (ht.mono hw₁).within _).bindAgrees fun greatest hg => ?_
    refine (hbefore w₁ hw₁ greatest x hg (hx.mono hw₁)).bind fun w₂ hw₂ b _ => ?_
    split
    · exact swap_agrees (ht.mono (hw₁.trans hw₂)) (hg.mono hw₂) (hx.mono (hw₁.trans hw₂)) _ _
    · exact .pure trivial

private theorem upward_agrees (ht : t.Changeable w) (hbefore : OrdersAgree g w before before')
    {pivot : Value} (hp : pivot.Within w) (last fuel i : Nat) :
    Agrees g w (upward call ⟨t, before⟩ pivot last fuel i)
      (upward call' ⟨t, before'⟩ pivot last fuel i) fun w' r => r.2.Within w' := by
  induction fuel generalizing w i with
  | zero => exact .fault _
  | succ fuel ih =>
      refine (fieldAt_same ht.within _).bindAgrees fun x hx => ?_
      refine (hbefore w subset_rfl x pivot hx hp).bind fun w' hw b _ => ?_
      split
      · split
        · exact .fault _
        · exact ih (ht.mono hw) (hbefore.mono hw) (hp.mono hw) _
      · exact .pure (hx.mono hw)

private theorem downward_agrees (ht : t.Changeable w) (hbefore : OrdersAgree g w before before')
    {pivot : Value} (hp : pivot.Within w) (first fuel j : Nat) :
    Agrees g w (downward call ⟨t, before⟩ pivot first fuel j)
      (downward call' ⟨t, before'⟩ pivot first fuel j) fun w' r => r.2.Within w' := by
  induction fuel generalizing w j with
  | zero => exact .fault _
  | succ fuel ih =>
      refine (fieldAt_same ht.within _).bindAgrees fun x hx => ?_
      refine (hbefore w subset_rfl pivot x hp hx).bind fun w' hw b _ => ?_
      split
      · split
        · exact .fault _
        · exact ih (ht.mono hw) (hbefore.mono hw) (hp.mono hw) _
      · exact .pure (hx.mono hw)

private theorem partition_agrees (ht : t.Changeable w) (hbefore : OrdersAgree g w before before')
    {pivot : Value} (hp : pivot.Within w) (up fuel i j : Nat) :
    Agrees g w (partition call ⟨t, before⟩ pivot up fuel i j)
      (partition call' ⟨t, before'⟩ pivot up fuel i j) fun _ _ => True := by
  induction fuel generalizing w i j with
  | zero => exact .fault _
  | succ fuel ih =>
      refine (upward_agrees ht hbefore hp _ _ _).bind fun w₁ hw₁ r hx => ?_
      obtain ⟨i, x⟩ := r
      have ht₁ := ht.mono hw₁
      have hp₁ := hp.mono hw₁
      refine (downward_agrees ht₁ (hbefore.mono hw₁) hp₁ _ _ _).bind fun w₂ hw₂ r hy => ?_
      obtain ⟨j, y⟩ := r
      have ht₂ := ht₁.mono hw₂
      have hx₂ := hx.mono hw₂
      dsimp only
      split
      · refine Same.agrees ?_
        exact (putAt_same ht₂ hx₂ _).bind fun _ _ =>
          (putAt_same ht₂ (hp₁.mono hw₂) _).bind fun _ _ => .pure trivial
      · refine (putAt_same ht₂ hy _).bindAgrees fun _ _ =>
          (putAt_same ht₂ hx₂ _).bindAgrees fun _ _ => ?_
        exact ih ht₂ (hbefore.mono (hw₁.trans hw₂)) (hp₁.mono hw₂) _ _

theorem sortBetween_agrees (ht : t.Changeable w) (hbefore : OrdersAgree g w before before')
    (fuel lo up : Nat) :
    Agrees g w (sortBetween call ⟨t, before⟩ fuel lo up)
      (sortBetween call' ⟨t, before'⟩ fuel lo up) fun _ _ => True := by
  induction fuel generalizing w lo up with
  | zero => exact .pure trivial
  | succ fuel ih =>
      unfold sortBetween
      split
      · exact .pure trivial
      · refine (orderTwo_agrees ht hbefore lo up).bind fun w₁ hw₁ _ _ => ?_
        split
        · exact .pure trivial
        · have ht₁ := ht.mono hw₁
          refine (placeMiddle_agrees ht₁ (hbefore.mono hw₁) _ _ _).bind fun w₂ hw₂ _ _ => ?_
          have ht₂ := ht₁.mono hw₂
          split
          · exact .pure trivial
          · refine (fieldAt_same ht₂.within _).bindAgrees fun pivot hp =>
              (fieldAt_same ht₂.within _).bindAgrees fun last hl =>
              (putAt_same ht₂ hl _).bindAgrees fun _ _ =>
              (putAt_same ht₂ hp _).bindAgrees fun _ _ => ?_
            have hbefore₂ := hbefore.mono (hw₁.trans hw₂)
            refine (partition_agrees ht₂ hbefore₂ hp _ _ _ _).bind fun w₃ hw₃ p _ => ?_
            have ht₃ := ht₂.mono hw₃
            have hbefore₃ := hbefore₂.mono hw₃
            -- Both parts are sorted, whichever comes first.
            have hparts (lo₁ up₁ lo₂ up₂ : Nat) :=
              (ih ht₃ hbefore₃ lo₁ up₁).bind fun w₄ hw₄ _ _ =>
                ih (ht₃.mono hw₄) (hbefore₃.mono hw₄) lo₂ up₂
            split
            · exact hparts _ _ _ _
            · exact hparts _ _ _ _

end Sorter

private theorem sort_agrees (hcall : CallsAgree g call call') {args : List Value}
    (h : AllWithin w args) (hlist : (optArg args 0).Changeable w) :
    Agrees g w (sort call args) (sort call' args) AllWithin := by
  refine (listArg_keeps _ hlist _).bindAgrees fun t ht => ?_
  refine (lengthOf_same ht.within).bindAgrees fun n _ => ?_
  split
  · exact .pure allWithin_nil
  · split
    · exact (bad_keeps _ 0 _).agrees
    · have hsorted {before before' : Value → Value → Eval Bool}
          (hbefore : OrdersAgree g w before before') :
          Agrees g w
            (do Sorter.sortBetween call ⟨t, before⟩ n.toNat 1 n.toNat; return [])
            (do Sorter.sortBetween call' ⟨t, before'⟩ n.toNat 1 n.toNat; return []) AllWithin :=
        (Sorter.sortBetween_agrees ht hbefore _ _ _).bind fun _ _ _ _ => .pure allWithin_nil
      dsimp only
      split
      · simp only [pure_bind]
        refine hsorted fun w' hw x y hx hy => Same.agrees ?_
        exact Same.get.bind fun s hs =>
          (settle_same (below_settled hs false hx hy)).bind fun _ _ => .pure trivial
      · simp only [pure_bind]
        refine (functionArg_keeps _ h 1).bindAgrees fun f hf => hsorted fun w' hw x y hx hy => ?_
        refine (hcall (hf.mono hw) (allWithin_cons.mpr ⟨hx, .one hy⟩)).bind fun _ _ _ _ => ?_
        exact .pure trivial

def changed : Builtin → List Value → Value
  | .basic .rawset, args | .table .insert, args | .table .remove, args
  | .table .sort, args => optArg args 0
  | .table .move, args => optArg args (targetIndex args)
  | _, _ => .nil

theorem changed_within {args : List Value} (h : AllWithin w args) (f : Builtin) :
    (changed f args).Within w := by
  unfold changed
  split
  all_goals first
    | exact optArg_within h _
    | trivial

theorem table_agrees (hcall : CallsAgree g call call') (f : TableFunction) {args : List Value}
    (h : AllWithin w args) (hchanged : (changed (.table f) args).Changeable w) :
    Agrees g w (table call f args) (table call' f args) AllWithin := by
  cases f with
  | concat => exact (concatItems_same h).agrees
  | insert => exact (insert_same h hchanged).agrees
  | move => exact (move_same h hchanged).agrees
  | pack =>
      have htable : ((Table.ofList args).set (Value.ofText "n") (ofInt args.length)).Within w :=
        (Table.within_ofList h).set trivial trivial
      have hmeta : ((Table.ofList args).set (Value.ofText "n") (ofInt args.length)).metatable =
          none := Table.set_metatable _ _
      refine (newTable_agrees htable hmeta).bind fun w' _ v hv => ?_
      exact .pure (.one hv)
  | remove => exact (remove_same hchanged).agrees
  | sort => exact sort_agrees hcall h hchanged
  | unpack => exact (unpack_same h).agrees

end Pagewright.Script.Library
