import Mathlib.Data.Set.Insert
import Mathlib.Order.BooleanAlgebra.Set
import Pagewright.Proofs.TableContents
import Pagewright.Script.Machine

/-! The tables that a running script can get hold of. The set of them grows as tables are made, and what
was within it before stays so. -/
namespace Pagewright.Script

variable {w w' : Set Nat}

def Value.Within (w : Set Nat) : Value → Prop
  | .table r => r ∈ w
  | _ => True

def AllWithin (w : Set Nat) (vs : List Value) : Prop := ∀ v ∈ vs, v.Within w

def Value.Changeable (w : Set Nat) (v : Value) : Prop := v.Within (w \ {0})

def Table.Within (w : Set Nat) (t : Table) : Prop := t.All fun k v => k.Within w ∧ v.Within w

def Env.Within (w : Set Nat) (env : Env) : Prop := AllWithin w env.extra

def Place.Within (w : Set Nat) : Place → Prop
  | .cell _ => True
  | .field o k _ => o.Within w ∧ k.Within w

def Construction.Within (w : Set Nat) (c : Construction) : Prop :=
  c.table ∈ w \ {0} ∧ AllWithin w c.waiting

def Exit.Within (w : Set Nat) : Exit → Prop
  | .returns vs | .done vs => AllWithin w vs
  | .raise v => v.Within w
  | .breakLoop | .goto _ => True

/-- The values of a frame. The thread that a script starts in is never resumed. -/
def Frame.Within (w : Set Nat) : Frame → Prop
  | .items _ done env => AllWithin w done ∧ env.Within w
  | .callee _ env _ _ | .receiver _ _ env _ _ | .left _ _ env _ | .both _ env | .either _ env
  | .object _ env _ | .after _ _ env | .locals _ _ _ _ env _ | .branch _ _ env
  | .whileTest _ _ env | .whileBody _ _ env | .untilBody _ env | .countRange _ env _
  | .countBody _ _ env | .eachRange _ _ env _ => env.Within w
  | .arguments f before _ _ => f.Within w ∧ AllWithin w before
  | .found o _ env _ _ => o.Within w ∧ env.Within w
  | .right _ v _ | .key v _ | .closes v => v.Within w
  | .item c _ env _ | .fieldKey c _ _ env _ => c.Within w ∧ env.Within w
  | .spread c => c.Within w
  | .fieldValue c k _ env _ => c.Within w ∧ k.Within w ∧ env.Within w
  | .targetObject _ _ _ places _ env => (∀ p ∈ places, p.Within w) ∧ env.Within w
  | .targetKey o _ _ places _ env => o.Within w ∧ (∀ p ∈ places, p.Within w) ∧ env.Within w
  | .assigned places _ => ∀ p ∈ places, p.Within w
  | .assigning rest _ => ∀ p ∈ rest, p.1.Within w ∧ p.2.Within w
  | .eachStep f s _ _ env _ => f.Within w ∧ s.Within w ∧ env.Within w
  | .eachBody f s c _ _ env _ => f.Within w ∧ s.Within w ∧ c.Within w ∧ env.Within w
  | .protect handler _ _ => ∀ h ∈ handler, h.Within w
  | .coroutine t _ _ _ _ => t ≠ 0
  | .exits e _ => e.Within w
  | .first | .unary _ _ | .verdict _ | .exitTest | .returning | .activation _ _ | .boundary _
  | .handling _ => True

def Thread.Within (w : Set Nat) : Thread → Prop
  | .fresh f => f.Within w
  | .suspended frames _ => ∀ f ∈ frames, f.Within w
  | .running | .dead => True

def Control.Within (w : Set Nat) : Control → Prop
  | .eval _ env | .exec _ _ env => env.Within w
  | .deliver vs => AllWithin w vs
  | .apply f args _ => f.Within w ∧ AllWithin w args
  | .exit e => e.Within w

/-! More tables become visible. -/

theorem Value.Within.mono (hw : w ⊆ w') {v : Value} (h : v.Within w) : v.Within w' := by
  cases v <;> first | trivial | exact hw h

theorem AllWithin.mono (hw : w ⊆ w') {vs : List Value} (h : AllWithin w vs) : AllWithin w' vs :=
  fun v hv => (h v hv).mono hw

theorem Value.Changeable.within {v : Value} (h : v.Changeable w) : v.Within w :=
  Value.Within.mono Set.sdiff_subset h

theorem Value.Within.changeable {v : Value} (h : v.Within w) (hne : v = .table 0 → 0 ∉ w) :
    v.Changeable w := by
  cases v with
  | table r =>
      refine ⟨h, ?_⟩
      rintro rfl
      exact hne rfl h
  | _ => trivial

theorem Value.Changeable.mono (hw : w ⊆ w') {v : Value} (h : v.Changeable w) : v.Changeable w' :=
  Value.Within.mono (Set.sdiff_subset_sdiff_left hw) h

theorem Table.Within.mono (hw : w ⊆ w') {t : Table} (h : t.Within w) : t.Within w' :=
  All.mono h fun _ _ hkv => ⟨hkv.1.mono hw, hkv.2.mono hw⟩

theorem Env.Within.mono (hw : w ⊆ w') {env : Env} (h : env.Within w) : env.Within w' :=
  AllWithin.mono hw h

theorem Place.Within.mono (hw : w ⊆ w') {p : Place} (h : p.Within w) : p.Within w' := by
  cases p with
  | cell r => trivial
  | field o k line => exact ⟨h.1.mono hw, h.2.mono hw⟩

theorem Construction.Within.mono (hw : w ⊆ w') {c : Construction} (h : c.Within w) :
    c.Within w' :=
  ⟨Set.sdiff_subset_sdiff_left hw h.1, h.2.mono hw⟩

theorem Exit.Within.mono (hw : w ⊆ w') {e : Exit} (h : e.Within w) : e.Within w' := by
  cases e with
  | returns vs => exact AllWithin.mono hw h
  | done vs => exact AllWithin.mono hw h
  | raise v => exact Value.Within.mono hw h
  | breakLoop => trivial
  | goto l => trivial

theorem Frame.Within.mono (hw : w ⊆ w') {f : Frame} (h : f.Within w) : f.Within w' := by
  have hv {v : Value} : v.Within w → v.Within w' := Value.Within.mono hw
  have hvs {vs : List Value} : AllWithin w vs → AllWithin w' vs := AllWithin.mono hw
  have henv {env : Env} : env.Within w → env.Within w' := Env.Within.mono hw
  have hc {c : Construction} : c.Within w → c.Within w' := Construction.Within.mono hw
  have hplaces {ps : List Place} : (∀ p ∈ ps, p.Within w) → ∀ p ∈ ps, p.Within w' :=
    fun hps p hp => (hps p hp).mono hw
  cases f with
  | assigning rest chunk => exact fun p hp => ⟨(h p hp).1.mono hw, (h p hp).2.mono hw⟩
  | protect handler site caller => exact fun v hvm => hv (h v hvm)
  | coroutine t mode site resumer caller => exact h
  | exits e caller => exact Exit.Within.mono hw h
  | first | unary | verdict | exitTest | returning | activation | boundary | handling => trivial
  | _ =>
      simp only [Frame.Within] at h ⊢
      first
        | exact hv h
        | exact henv h
        | exact hc h
        | exact hplaces h
        | exact ⟨hvs h.1, henv h.2⟩
        | exact ⟨hv h.1, hvs h.2⟩
        | exact ⟨hv h.1, henv h.2⟩
        | exact ⟨hc h.1, henv h.2⟩
        | exact ⟨hplaces h.1, henv h.2⟩
        | exact ⟨hc h.1, hv h.2.1, henv h.2.2⟩
        | exact ⟨hv h.1, hplaces h.2.1, henv h.2.2⟩
        | exact ⟨hv h.1, hv h.2.1, henv h.2.2⟩
        | exact ⟨hv h.1, hv h.2.1, hv h.2.2.1, henv h.2.2.2⟩

theorem Thread.Within.mono (hw : w ⊆ w') {t : Thread} (h : t.Within w) : t.Within w' := by
  cases t with
  | fresh f => exact Value.Within.mono hw h
  | suspended frames scripts => exact fun f hf => (h f hf).mono hw
  | running => trivial
  | dead => trivial

/-! Values of lists. -/

@[simp] theorem allWithin_nil : AllWithin w [] := fun _ hv => absurd hv List.not_mem_nil

@[simp] theorem allWithin_cons {v : Value} {vs : List Value} :
    AllWithin w (v :: vs) ↔ v.Within w ∧ AllWithin w vs :=
  List.forall_mem_cons

@[simp] theorem allWithin_append {vs ws : List Value} :
    AllWithin w (vs ++ ws) ↔ AllWithin w vs ∧ AllWithin w ws :=
  List.forall_mem_append

@[simp] theorem allWithin_reverse {vs : List Value} : AllWithin w vs.reverse ↔ AllWithin w vs := by
  simp only [AllWithin, List.mem_reverse]

theorem AllWithin.one {v : Value} (hv : v.Within w) : AllWithin w [v] :=
  allWithin_cons.mpr ⟨hv, allWithin_nil⟩

theorem allWithin_map {α : Type} {f : α → Value} (h : ∀ a, (f a).Within w) (as : List α) :
    AllWithin w (as.map f) := by
  intro v hv
  obtain ⟨a, -, rfl⟩ := List.mem_map.mp hv
  exact h a

theorem AllWithin.drop {vs : List Value} (h : AllWithin w vs) (n : Nat) :
    AllWithin w (vs.drop n) :=
  fun v hv => h v (List.mem_of_mem_drop hv)

theorem AllWithin.getD {vs : List Value} (h : AllWithin w vs) (i : Nat) :
    (vs.getD i .nil).Within w := by
  rw [List.getD_eq_getElem?_getD]
  cases hv : vs[i]? with
  | none => trivial
  | some v => exact h v (List.mem_of_getElem? hv)

theorem AllWithin.headD {vs : List Value} (h : AllWithin w vs) : (vs.headD .nil).Within w := by
  cases vs with
  | nil => trivial
  | cons v vs => exact (allWithin_cons.mp h).1

theorem AllWithin.adjust {vs : List Value} (h : AllWithin w vs) (n : Nat) :
    AllWithin w (Machine.adjust n vs) := by
  induction n generalizing vs with
  | zero => exact allWithin_nil
  | succ n ih =>
      cases vs with
      | nil => exact allWithin_cons.mpr ⟨trivial, ih allWithin_nil⟩
      | cons v vs =>
          obtain ⟨hv, hvs⟩ := allWithin_cons.mp h
          exact allWithin_cons.mpr ⟨hv, ih hvs⟩

@[simp] theorem Literal.within (l : Literal) : l.value.Within w := by
  cases l <;> trivial

theorem Value.Within.normalKey {v : Value} (h : v.Within w) : v.normalKey.Within w := by
  unfold Value.normalKey
  split
  · split <;> trivial
  · exact h

/-! Tables. -/

theorem uniform_within (w : Set Nat) : Table.Uniform fun k v => k.Within w ∧ v.Within w :=
  ⟨fun _ _ h => ⟨trivial, h.2⟩, trivial, trivial⟩

theorem Table.Within.get {t : Table} (h : t.Within w) (k : Value) : (t.get k).Within w := by
  rcases All.get (uniform_within w) h k with hnil | hkv
  · rw [hnil]
    trivial
  · exact hkv.2

theorem Table.Within.set {t : Table} (h : t.Within w) {k v : Value} (hk : k.Within w)
    (hv : v.Within w) : (t.set k v).Within w :=
  All.set (uniform_within w) h ⟨hk, hv⟩

theorem Table.Within.storeItems {t : Table} (h : t.Within w) {vs : List Value}
    (hvs : AllWithin w vs) (n : Nat) : (t.storeItems n vs).Within w :=
  All.storeItems h (fun v hv => ⟨trivial, hvs v hv⟩) n

theorem Table.Within.next? {t : Table} (h : t.Within w) {k k' v : Value}
    (hnext : t.next? k = some (some (k', v))) : k'.Within w ∧ v.Within w :=
  All.next? (uniform_within w) h hnext

@[simp] theorem Table.within_empty : Table.empty.Within w := All.empty

@[simp] theorem Table.within_withRoom (list others : Nat) : (Table.withRoom list others).Within w :=
  All.withRoom (uniform_within w) list others

theorem Table.within_ofList {vs : List Value} (h : AllWithin w vs) : (Table.ofList vs).Within w :=
  All.ofList fun v hv => ⟨trivial, h v hv⟩

end Pagewright.Script
