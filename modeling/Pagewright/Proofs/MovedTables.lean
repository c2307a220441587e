import Mathlib.Data.List.Basic
import Mathlib.Logic.Embedding.Basic
import Pagewright.Proofs.TableOrders

/-!
Tables after the tags have moved to other places. Scripts know a tag as a value of the host that is equal
to itself alone, so tables treat it alike at every place.
-/
namespace Pagewright.Script

/-- A value, with the tags at other places. -/
def Value.moved (π : Nat ↪ Nat) : Value → Value
  | .hosted r => .hosted (π r)
  | v => v

variable {π : Nat ↪ Nat}

namespace Value

theorem moved_injective : Function.Injective (moved π) := by
  intro v v' h
  cases v <;> cases v' <;> first | exact h | exact Value.noConfusion h | skip
  exact congrArg hosted (π.injective (hosted.inj h))

@[simp] theorem moved_inj {v v' : Value} : v.moved π = v'.moved π ↔ v = v' := moved_injective.eq_iff

@[simp] theorem moved_nil : moved π nil = nil := rfl

@[simp] theorem moved_boolean (b : Bool) : moved π (boolean b) = boolean b := rfl

@[simp] theorem moved_integer (i : Int64) : moved π (integer i) = integer i := rfl

@[simp] theorem moved_float (d : Double) : moved π (float d) = float d := rfl

@[simp] theorem moved_string (s : Bytes) : moved π (string s) = string s := rfl

@[simp] theorem moved_table (r : Nat) : moved π (table r) = table r := rfl

@[simp] theorem moved_closure (r : Nat) : moved π (closure r) = closure r := rfl

@[simp] theorem moved_builtin (f : Builtin) : moved π (builtin f) = builtin f := rfl

@[simp] theorem moved_generator (r : Nat) : moved π (generator r) = generator r := rfl

@[simp] theorem moved_thread (r : Nat) : moved π (thread r) = thread r := rfl

@[simp] theorem moved_address : moved π address = address := rfl

@[simp] theorem moved_hosted (r : Nat) : moved π (hosted r) = hosted (π r) := rfl

@[simp] theorem getD_map_moved (vs : List Value) (i : Nat) :
    (vs.map (·.moved π)).getD i nil = (vs.getD i nil).moved π := by
  rw [List.getD_eq_getElem?_getD, List.getD_eq_getElem?_getD, List.getElem?_map]
  cases vs[i]? <;> rfl

@[simp] theorem headD_map_moved (vs : List Value) :
    (vs.map (·.moved π)).headD nil = (vs.headD nil).moved π := by
  cases vs <;> rfl

@[simp] theorem isNil_moved (v : Value) : (v.moved π).isNil = v.isNil := by cases v <;> rfl

end Value

def movedEntry (π : Nat ↪ Nat) (p : Value × Value) : Value × Value := (p.1.moved π, p.2.moved π)

namespace Table

def moved (π : Nat ↪ Nat) (t : Table) : Table :=
  { t with array := t.array.map (·.moved π), others := t.others.map (movedEntry π) }

variable {t : Table} (k v : Value) (ps : List (Value × Value))

/-! ### Reading -/

@[simp] theorem position?_moved : (t.moved π).position? (k.moved π) = t.position? k := by
  cases k <;> simp [position?, moved, Value.moved]

@[simp] theorem lookup_moved :
    lookup (k.moved π) (ps.map (movedEntry π)) = (lookup k ps).moved π := by
  induction ps with
  | nil => rfl
  | cons p rest ih =>
    simp only [List.map_cons, lookup, movedEntry, Value.moved_inj, apply_ite (Value.moved π), ih]

@[simp] private theorem hasOther_moved :
    hasOther (k.moved π) (ps.map (movedEntry π)) = hasOther k ps := by
  induction ps with
  | nil => rfl
  | cons p rest ih => simp only [List.map_cons, hasOther, movedEntry, Value.moved_inj, ih]

@[simp] theorem getD_moved (a : Array Value) (i : Nat) :
    (a.map (·.moved π)).getD i .nil = (a.getD i .nil).moved π := by
  rw [Array.getD_eq_getD_getElem?, Array.getD_eq_getD_getElem?, Array.getElem?_map]
  cases a[i]? <;> rfl

@[simp] theorem get_moved : (t.moved π).get (k.moved π) = (t.get k).moved π := by
  unfold get
  rw [position?_moved]
  split
  · exact getD_moved _ _
  · exact lookup_moved k t.others

@[simp] theorem item_moved (n : Nat) : (t.moved π).item n = (t.item n).moved π := by
  have harray : (t.moved π).array[n - 1]? = t.array[n - 1]?.map (·.moved π) :=
    Array.getElem?_map ..
  unfold item
  rw [harray]
  cases t.array[n - 1]? with
  | none => exact lookup_moved (.integer _) t.others
  | some v => rfl

@[simp] theorem border_moved : (t.moved π).border = t.border := by
  have hsize : (t.moved π).array.size = t.array.size := Array.size_map ..
  have hempty : (t.moved π).others.isEmpty = t.others.isEmpty := List.isEmpty_map
  unfold border
  simp only [hsize, hempty, item_moved, Value.isNil_moved]

@[simp] theorem sequence_moved : (t.moved π).sequence = t.sequence.map (·.moved π) := by
  have hfrom (fuel n : Nat) (out : List Value) :
      (t.moved π).sequenceFrom fuel n (out.map (·.moved π)) =
        (t.sequenceFrom fuel n out).map (·.moved π) := by
    induction fuel generalizing n out with
    | zero => exact List.map_reverse.symm
    | succ fuel ih =>
      unfold sequenceFrom
      rw [item_moved]
      cases hv : t.item n with
      | nil => exact List.map_reverse.symm
      | _ => exact ih (n + 1) (_ :: out)
  have hsize : (t.moved π).array.size = t.array.size := Array.size_map ..
  have hlength : (t.moved π).others.length = t.others.length := List.length_map ..
  unfold sequence
  rw [hsize, hlength]
  exact hfrom _ 1 []

theorem filter_moved {f : Value × Value → Bool} (h : ∀ p, f (movedEntry π p) = f p) :
    (ps.map (movedEntry π)).filter f = (ps.filter f).map (movedEntry π) := by
  rw [List.filter_map]
  exact congrArg (List.map _) (List.filter_congr fun p _ => h p)

@[simp] private theorem arrayPairs_moved (a : Array Value) :
    arrayPairs (a.map (·.moved π)) = (arrayPairs a).map (movedEntry π) := by
  unfold arrayPairs
  rw [Array.toList_map, List.zipIdx_map, List.filterMap_map, List.map_filterMap]
  refine List.filterMap_congr fun ⟨v, i⟩ _ => ?_
  cases v <;> rfl

@[simp] theorem pairs_moved : (t.moved π).pairs = t.pairs.map (movedEntry π) := by
  unfold pairs
  rw [List.map_append, ← filter_moved]
  · exact congrArg (· ++ _) (arrayPairs_moved t.array)
  · exact fun p => congrArg not (Value.isNil_moved p.2)

/-! ### Traversals -/

@[simp] private theorem nextPosition_moved (a : Array Value) (fuel i : Nat) :
    nextPosition (a.map (·.moved π)) fuel i =
      (nextPosition a fuel i).map fun p => (p.1, p.2.moved π) := by
  induction fuel generalizing i with
  | zero => rfl
  | succ fuel ih =>
    unfold nextPosition
    rw [Array.getElem?_map]
    cases a[i]? with
    | none => rfl
    | some v => cases v with
      | nil => exact ih (i + 1)
      | _ => rfl

@[simp] theorem firstPair_moved : firstPair (ps.map (movedEntry π)) =
    (firstPair ps).map (movedEntry π) := by
  unfold firstPair
  rw [List.find?_map]
  congr 2
  funext p
  simp [movedEntry]

@[simp] private theorem after_moved : after (k.moved π) (ps.map (movedEntry π)) =
    (after k ps).map (·.map (movedEntry π)) := by
  induction ps with
  | nil => rfl
  | cons p rest ih =>
    simp only [List.map_cons, after, movedEntry, Value.moved_inj]
    split
    · rfl
    · exact ih

@[simp] theorem nextFrom_moved (i : Nat) :
    (t.moved π).nextFrom i = (t.nextFrom i).map (movedEntry π) := by
  have hsize : (t.moved π).array.size = t.array.size := Array.size_map ..
  have harray : nextPosition (t.moved π).array (t.array.size - i) i =
      (nextPosition t.array (t.array.size - i) i).map fun p => (p.1, p.2.moved π) :=
    nextPosition_moved ..
  unfold nextFrom
  rw [hsize, harray]
  cases nextPosition t.array (t.array.size - i) i with
  | none => exact firstPair_moved t.others
  | some p => rfl

theorem next?_of_ne_nil (h : k ≠ .nil) : t.next? k =
    (t.position? k).elim ((after k t.others).map firstPair) fun i => some (t.nextFrom (i + 1)) := by
  cases k with
  | nil => exact absurd rfl h
  | _ =>
    unfold next?
    dsimp only
    split <;> simp only [*, Option.elim]

@[simp] theorem next?_moved : (t.moved π).next? (k.moved π) =
    (t.next? k).map (Option.map (movedEntry π)) := by
  have hafter : (after (k.moved π) (t.moved π).others).map firstPair =
      ((after k t.others).map firstPair).map (Option.map (movedEntry π)) := by
    refine (congrArg (Option.map firstPair) (after_moved k t.others)).trans ?_
    rw [Option.map_map, Option.map_map]
    exact congrArg (Option.map · _) (funext firstPair_moved)
  by_cases hk : k = .nil
  · subst hk
    exact congrArg some (nextFrom_moved 0)
  · have hk' : k.moved π ≠ .nil := fun h => hk (Value.moved_inj.mp (h.trans Value.moved_nil.symm))
    rw [next?_of_ne_nil _ hk, next?_of_ne_nil _ hk', position?_moved, hafter]
    cases t.position? k with
    | none => rfl
    | some i => exact congrArg some (nextFrom_moved _)

/-! ### Putting in -/

@[simp] theorem empty_moved : empty.moved π = empty := by simp [empty, moved]

@[simp] theorem withRoom_moved (list others : Nat) :
    (withRoom list others).moved π = withRoom list others := by
  simp only [withRoom, moved, Array.map_replicate]
  rfl

@[simp] private theorem replace_moved : replace (k.moved π) (v.moved π) (ps.map (movedEntry π)) =
    (replace k v ps).map (movedEntry π) := by
  induction ps with
  | nil => rfl
  | cons p rest ih =>
    simp only [List.map_cons, replace, movedEntry, Value.moved_inj]
    split
    · rfl
    · exact congrArg (movedEntry π p :: ·) ih

@[simp] private theorem positions_moved (ks : List Value) :
    positions (ks.map (·.moved π)) = positions ks := by
  unfold positions
  rw [List.filterMap_map]
  refine List.filterMap_congr fun k _ => ?_
  cases k <;> rfl

@[simp] private theorem append_moved :
    (t.moved π).append (k.moved π) (v.moved π) = (t.append k v).moved π := by
  unfold append
  rw [position?_moved]
  split
  · simp [moved, Array.map_setIfInBounds]
  · simp [moved, movedEntry]

theorem foldl_moved {α : Type} {m : α → α} {f : Array Value → α → Array Value}
    (h : ∀ a x, f (a.map (·.moved π)) (m x) = (f a x).map (·.moved π)) (xs : List α)
    (a : Array Value) :
    (xs.map m).foldl f (a.map (·.moved π)) = (xs.foldl f a).map (·.moved π) := by
  induction xs generalizing a with
  | nil => rfl
  | cons x rest ih => rw [List.map_cons, List.foldl_cons, h, ih, List.foldl_cons]

@[simp] private theorem layout_moved : (t.moved π).layout (k.moved π) = (t.layout k).moved π := by
  have hkeys : k.moved π :: (t.moved π).pairs.map (·.1) =
      (k :: t.pairs.map (·.1)).map (·.moved π) := by
    rw [pairs_moved, List.map_cons, List.map_map, List.map_map]
    rfl
  unfold layout
  simp only [List.partition_eq_filter_filter, hkeys, positions_moved]
  generalize listSize (positions (k :: t.pairs.map (·.1))) = size
  have hplaces : Array.replicate size Value.nil =
      (Array.replicate size Value.nil).map (·.moved π) := by rw [Array.map_replicate]; rfl
  rw [pairs_moved, filter_moved, filter_moved, hplaces, foldl_moved, List.length_map, ← hplaces]
  · cases k <;> rfl
  · rintro a ⟨k, v⟩
    cases k with
    | integer i => exact Array.map_setIfInBounds.symm
    | _ => rfl
  · rintro ⟨k, v⟩
    cases k <;> rfl
  · rintro ⟨k, v⟩
    cases k <;> rfl

@[simp] theorem set_moved : (t.moved π).set (k.moved π) (v.moved π) = (t.set k v).moved π := by
  have hother : hasOther (k.moved π) (t.moved π).others = hasOther k t.others :=
    hasOther_moved k t.others
  have hlength : (t.moved π).others.length = t.others.length := List.length_map ..
  unfold set
  rw [position?_moved, hother, Value.isNil_moved, hlength, layout_moved, append_moved]
  cases t.position? k with
  | some i => simp [moved, Array.map_setIfInBounds]
  | none =>
    simp only [apply_ite (moved π)]
    congr 1
    · exact congrArg (fun others => { t.moved π with others }) (replace_moved k v t.others)
    · congr 2
      simp [moved, movedEntry]

@[simp] theorem storeItems_moved (n : Nat) (vs : List Value) :
    (t.moved π).storeItems n (vs.map (·.moved π)) = (t.storeItems n vs).moved π := by
  have hitems : (vs.map (·.moved π)).zipIdx n = (vs.zipIdx n).map (Prod.map (·.moved π) id) :=
    List.zipIdx_map
  have hsize : (t.moved π).array.size = t.array.size := Array.size_map ..
  have harray : ((vs.map (·.moved π)).zipIdx n).foldl placeItem (t.moved π).array =
      ((vs.zipIdx n).foldl placeItem t.array).map (·.moved π) := by
    rw [hitems]
    refine foldl_moved (fun a item => ?_) _ _
    simp only [placeItem, Prod.map, id, Array.size_map, apply_ite (Array.map _), Array.map_push,
      Array.map_setIfInBounds]
  have hothers {f : Value × Value → Bool} (h : ∀ p, f (movedEntry π p) = f p) :
      (t.moved π).others.filter f = (t.others.filter f).map (movedEntry π) :=
    filter_moved t.others h
  unfold storeItems
  rw [harray, hsize]
  simp only [Array.size_map, apply_ite (moved π)]
  rw [hothers]
  · rfl
  · rintro ⟨k, v⟩
    cases k <;> rfl

end Table

end Pagewright.Script
