import Pagewright.Script.Value

/-!
Tables. Positions from 1 up are kept in an array, all other keys with their values in the order they
came. The array takes over a run of integer keys when the part for other keys is full and more than
half of the run's places would be in use; that decides which border `border` finds in a list with
holes.
-/
namespace Pagewright.Script

structure Table where
  /-- The values at 1, 2, …; nil where there is none. -/
  array : Array Value
  /-- Other keys, in the order of their insertion. A key whose value was removed stays, with nil,
  until the table is laid out anew, so that a traversal can go on from it. -/
  others : List (Value × Value)
  /-- How many other keys fit before the table is laid out anew. -/
  room : Nat
  /-- The table that holds the metamethods. -/
  metatable : Option Nat
deriving DecidableEq, Repr, Inhabited

namespace Table

def empty : Table := ⟨#[], [], 0, none⟩

def powerAbove (n : Nat) : Nat :=
  if n = 0 then 0 else if Nat.pow 2 n.log2 = n then n else Nat.pow 2 (n.log2 + 1)

def withRoom (list others : Nat) : Table :=
  ⟨Array.replicate list .nil, [], powerAbove others, none⟩

def ofList (vs : List Value) : Table := ⟨vs.toArray, [], 0, none⟩

def ofListWithin (places : Nat) (vs : List Value) : Table :=
  ofList (vs ++ List.replicate (places - vs.length) .nil)

def position? (t : Table) : Value → Option Nat
  | .integer i =>
    let n := i.toInt
    if 1 ≤ n ∧ n ≤ t.array.size then some (n.toNat - 1) else none
  | _ => none

def lookup (k : Value) : List (Value × Value) → Value
  | [] => .nil
  | (k', v) :: rest => if k' = k then v else lookup k rest

def get (t : Table) (k : Value) : Value :=
  match t.position? k with
  | some i => t.array.getD i .nil
  | none => lookup k t.others

def hasOther (k : Value) : List (Value × Value) → Bool
  | [] => false
  | (k', _) :: rest => k' = k || hasOther k rest

def replace (k v : Value) : List (Value × Value) → List (Value × Value)
  | [] => []
  | (k', v') :: rest => if k' = k then (k', v) :: rest else (k', v') :: replace k v rest

def positions (ks : List Value) : List Nat :=
  ks.filterMap fun
    | .integer i => if 1 ≤ i.toInt then some i.toInt.toNat else none
    | _ => none

/-- The greatest power of two of whose places more than half are among the positions, and 0 if there
is none. -/
def listSize (ps : List Nat) : Nat :=
  (List.range 64).foldl (fun best e =>
    let n := Nat.pow 2 e
    if n / 2 < ps.length then
      (if n / 2 < ps.countP (· ≤ n) then n else best)
    else best) 0

def arrayPairs (a : Array Value) : List (Value × Value) :=
  (a.toList.zipIdx 1).filterMap fun (v, i) =>
    if v.isNil then none else some (.integer (Int64.ofNat i), v)

def pairs (t : Table) : List (Value × Value) :=
  arrayPairs t.array ++ t.others.filter fun (_, v) => !v.isNil

def append (t : Table) (k v : Value) : Table :=
  match t.position? k with
  | some i => { t with array := t.array.setIfInBounds i v }
  | none => { t with others := t.others ++ [(k, v)] }

/-- Lays the table out anew so that the key, which is not in it yet, has a place. -/
def layout (t : Table) (k : Value) : Table :=
  let live := t.pairs
  let size := listSize (positions (k :: live.map (·.1)))
  let fits : Value → Bool
    | .integer i => 1 ≤ i.toInt && i.toInt ≤ size
    | _ => false
  let (inList, outside) := live.partition fun (k', _) => fits k'
  let array := inList.foldl (fun a (k', v) =>
    match k' with
    | .integer i => a.setIfInBounds (i.toInt.toNat - 1) v
    | _ => a) (Array.replicate size .nil)
  ⟨array, outside, powerAbove (outside.length + if fits k then 0 else 1), t.metatable⟩

/-- Sets the value of a key; nil removes it. The key is normal, not nil and not a NaN. -/
def set (t : Table) (k v : Value) : Table :=
  match t.position? k with
  | some i => { t with array := t.array.setIfInBounds i v }
  | none =>
    if hasOther k t.others then { t with others := replace k v t.others }
    else if v.isNil then t
    else if t.others.length < t.room then { t with others := t.others ++ [(k, v)] }
    else (t.layout k).append k v

def placeItem (a : Array Value) (item : Value × Nat) : Array Value :=
  if item.2 < a.size then a.setIfInBounds item.2 item.1 else a.push item.1

def storeItems (t : Table) (n : Nat) (vs : List Value) : Table :=
  let array := (vs.zipIdx n).foldl placeItem t.array
  let isOutside : Value → Bool
    | .integer i => i.toInt < 1 || (array.size : Int) < i.toInt
    | _ => true
  if array.size = t.array.size then { t with array }
  else { t with array, others := t.others.filter fun (k, _) => isOutside k }

def item (t : Table) (n : Nat) : Value :=
  match t.array[n - 1]? with
  | some v => v
  | none => lookup (.integer (Int64.ofNat n)) t.others

def bisect (inUse : Nat → Bool) : Nat → Nat → Nat → Nat
  | 0, low, _ => low
  | fuel + 1, low, high =>
    if high - low ≤ 1 then low
    else
      let mid := (low + high) / 2
      if inUse mid then bisect inUse fuel mid high else bisect inUse fuel low mid

def double (inUse : Nat → Bool) : Nat → Nat → Nat × Nat
  | 0, n => (n, n + 1)
  | fuel + 1, n => if inUse (2 * n) then double inUse fuel (2 * n) else (n, 2 * n)

/-- A border: a position in use whose successor is not, or 0. In a list without holes it is the
length. -/
def border (t : Table) : Nat :=
  let n := t.array.size
  let inUse (i : Nat) : Bool := !(t.item i).isNil
  if 0 < n && !inUse n then
    if 2 ≤ n && inUse (n - 1) then n - 1 else bisect inUse 64 0 n
  else if t.others.isEmpty || !inUse (n + 1) then n
  else
    let (low, high) := double inUse 62 (max n 1)
    bisect inUse 64 low high

def sequenceFrom (t : Table) : Nat → Nat → List Value → List Value
  | 0, _, out => out.reverse
  | fuel + 1, n, out =>
    match t.item n with
    | .nil => out.reverse
    | v => sequenceFrom t fuel (n + 1) (v :: out)

def sequence (t : Table) : List Value :=
  t.sequenceFrom (t.array.size + t.others.length) 1 []

def nextPosition (a : Array Value) : Nat → Nat → Option (Nat × Value)
  | 0, _ => none
  | fuel + 1, i =>
    match a[i]? with
    | some .nil => nextPosition a fuel (i + 1)
    | some v => some (i, v)
    | none => none

def firstPair (ps : List (Value × Value)) : Option (Value × Value) :=
  ps.find? fun (_, v) => !v.isNil

def after (k : Value) : List (Value × Value) → Option (List (Value × Value))
  | [] => none
  | (k', _) :: rest => if k' = k then some rest else after k rest

def nextFrom (t : Table) (i : Nat) : Option (Value × Value) :=
  match nextPosition t.array (t.array.size - i) i with
  | some (j, v) => some (.integer (Int64.ofNat (j + 1)), v)
  | none => firstPair t.others

/-- The pair that follows a key in a traversal (nil: the first one); `none` if the key is not in the
table, `some none` at the end. -/
def next? (t : Table) (k : Value) : Option (Option (Value × Value)) :=
  match k with
  | .nil => some (t.nextFrom 0)
  | k =>
    match t.position? k with
    | some i => some (t.nextFrom (i + 1))
    | none => (after k t.others).map firstPair

end Table

end Pagewright.Script
