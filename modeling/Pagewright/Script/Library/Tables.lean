import Pagewright.Script.Library.Arguments

/-!
The functions on tables. They read and write through metamethods, and take the length of a table as
the operator does.
-/
namespace Pagewright.Script.Library

def lengthOf (call : Callback) (v : Value) : Eval Int := do
  match (← Eval.settle call (length (← get) v)).toInteger? with
  | some n => return n.toInt
  | none => Eval.fault (.format "object length is not an integer")

def fieldAt (call : Callback) (t : Value) (i : Int) : Eval Value :=
  Eval.getField call t (ofInt i)

def putAt (call : Callback) (t : Value) (i : Int) (v : Value) : Eval Unit :=
  Eval.putField call t (ofInt i) v

def listArg (f : Builtin) (args : List Value) (i : Nat) (events : List Bytes) : Eval Value := do
  let v := optArg args i
  let s ← get
  match v with
  | .table _ => return v
  | v =>
    if (s.metatable? v).isSome && events.all fun e => !(s.metamethod v e).isNil then return v
    else bad f i ("table expected, got " ++ given args i)

def joinFrom (call : Callback) (t : Value) (sep : Bytes) (last : Int) :
    Nat → Int → Bytes → Eval Bytes
  | 0, _, out => return out.reverse
  | fuel + 1, i, out => do
    match (← fieldAt call t i).toBytes? with
    | none => Eval.fault (.invalidItem i)
    | some s =>
      let out := s.reverse ++ out
      if i = last then return out.reverse
      else joinFrom call t sep last fuel (i + 1) (sep.reverse ++ out)

def concatItems (call : Callback) (args : List Value) : Eval (List Value) := do
  let b : Builtin := .table .concat
  let t ← listArg b args 0 [Event.index, Event.length]
  let n ← lengthOf call t
  let sep ← bytesOr b args 1 []
  let i ← integerOr b args 2 1
  let j ← integerOr b args 3 n
  if j < i then return [.string []]
  else return [.string (← joinFrom call t sep j ((j - i).toNat + 1) i [])]

def isPlace (i n : Int) : Bool := 1 ≤ i && i ≤ n

def copyItems (call : Callback) (source target : Value) (step : Int) : Nat → Int → Int → Eval Unit
  | 0, _, _ => return ()
  | n + 1, i, j => do
    putAt call target j (← fieldAt call source i)
    copyItems call source target step n (i + step) (j + step)

def insert (call : Callback) (args : List Value) : Eval (List Value) := do
  let b : Builtin := .table .insert
  let t ← listArg b args 0 [Event.index, Event.newIndex, Event.length]
  let e := (← lengthOf call t) + 1
  match args.drop 1 with
  | [v] =>
    putAt call t e v
    return []
  | [_, v] =>
    let pos ← integerArg b args 1
    if !isPlace pos e then bad b 1 "position out of bounds"
    else
      copyItems call t t (-1) (e - pos).toNat (e - 1) e
      putAt call t pos v
      return []
  | _ => Eval.fault (.format "wrong number of arguments to 'insert'")

def remove (call : Callback) (args : List Value) : Eval (List Value) := do
  let b : Builtin := .table .remove
  let t ← listArg b args 0 [Event.index, Event.newIndex, Event.length]
  let size ← lengthOf call t
  let pos ← integerOr b args 1 size
  if (arg? args 1).isSome && pos ≠ size && !isPlace pos (size + 1) then
    bad b 1 "position out of bounds"
  else
    let v ← fieldAt call t pos
    let n := (size - pos).toNat
    copyItems call t t 1 n (pos + 1) pos
    putAt call t (max pos size) .nil
    return [v]

def targetIndex (args : List Value) : Nat :=
  match optArg args 4 with
  | .nil => 0
  | _ => 4

def move (call : Callback) (args : List Value) : Eval (List Value) := do
  let b : Builtin := .table .move
  let source ← listArg b args 0 [Event.index]
  let i ← integerArg b args 1
  let e ← integerArg b args 2
  let j ← integerArg b args 3
  let into := targetIndex args
  let target ← listArg b args into [Event.newIndex]
  if e < i then return [target]
  else if !(0 < i || e < 0x7fffffffffffffff + i) then bad b 2 "too many elements to move"
  else if 0x7fffffffffffffff - (e - i) < j then bad b 3 "destination wrap around"
  else
    let n := (e - i).toNat + 1
    if e < j || j ≤ i || (into = 4 && source ≠ target) then
      copyItems call source target 1 n i j
    else copyItems call source target (-1) n e (j + (e - i))
    return [target]

def mostResults : Nat := 1000000

def unpack (call : Callback) (args : List Value) : Eval (List Value) := do
  let b : Builtin := .table .unpack
  let t := optArg args 0
  let i ← integerOr b args 1 1
  let j ← match optArg args 2 with
    | .nil => lengthOf call t
    | _ => integerArg b args 2
  if j < i then return []
  else if mostResults ≤ (j - i).toNat then Eval.fault .tooManyResults
  else (List.range ((j - i).toNat + 1)).mapM fun (k : Nat) => fieldAt call t (i + k)

/-! Sorting by partition. The pivot is the median of the first, the middle and the last item. -/

structure Sorter where
  table : Value
  before : Value → Value → Eval Bool

namespace Sorter

def orderTwo (call : Callback) (s : Sorter) (i j : Nat) : Eval Unit := do
  let x ← fieldAt call s.table i
  let y ← fieldAt call s.table j
  if ← s.before y x then
    putAt call s.table i y
    putAt call s.table j x

/-- Puts the item at `p` in its place between those at two positions, the first of which does not
come after the second. -/
def placeMiddle (call : Callback) (s : Sorter) (lo p up : Nat) : Eval Unit := do
  let x ← fieldAt call s.table p
  let least ← fieldAt call s.table lo
  if ← s.before x least then
    putAt call s.table p least
    putAt call s.table lo x
  else
    let greatest ← fieldAt call s.table up
    if ← s.before greatest x then
      putAt call s.table p greatest
      putAt call s.table up x

def upward (call : Callback) (s : Sorter) (pivot : Value) (last : Nat) :
    Nat → Nat → Eval (Nat × Value)
  | 0, _ => Eval.fault .invalidOrder
  | fuel + 1, i => do
    let x ← fieldAt call s.table (i + 1 : Nat)
    if ← s.before x pivot then
      if i + 1 = last then Eval.fault .invalidOrder
      else upward call s pivot last fuel (i + 1)
    else return (i + 1, x)

def downward (call : Callback) (s : Sorter) (pivot : Value) (first : Nat) :
    Nat → Nat → Eval (Nat × Value)
  | 0, _ => Eval.fault .invalidOrder
  | fuel + 1, j => do
    let x ← fieldAt call s.table ((j : Int) - 1)
    if ← s.before pivot x then
      if j - 1 < first then Eval.fault .invalidOrder
      else downward call s pivot first fuel (j - 1)
    else return (j - 1, x)

/-- Parts the items between two positions at the pivot, which stands at `up - 1`. -/
def partition (call : Callback) (s : Sorter) (pivot : Value) (up : Nat) :
    Nat → Nat → Nat → Eval Nat
  | 0, _, _ => Eval.fault .invalidOrder
  | fuel + 1, i, j => do
    let (i, x) ← upward call s pivot (up - 1) (up + 1) i
    let (j, y) ← downward call s pivot i (up + 1) j
    if j < i then
      putAt call s.table (up - 1 : Nat) x
      putAt call s.table i pivot
      return i
    else
      putAt call s.table i y
      putAt call s.table j x
      partition call s pivot up fuel i j

/-- Sorts the items between two positions, the shorter part first. -/
def sortBetween (call : Callback) (s : Sorter) : Nat → Nat → Nat → Eval Unit
  | 0, _, _ => return ()
  | fuel + 1, lo, up => do
    if up ≤ lo then return ()
    orderTwo call s lo up
    if up - lo = 1 then return ()
    let p := (lo + up) / 2
    placeMiddle call s lo p up
    if up - lo = 2 then return ()
    let pivot ← fieldAt call s.table p
    let last ← fieldAt call s.table (up - 1 : Nat)
    putAt call s.table p last
    putAt call s.table (up - 1 : Nat) pivot
    let p ← partition call s pivot up up lo (up - 1)
    if p - lo < up - p then
      sortBetween call s fuel lo (p - 1)
      sortBetween call s fuel (p + 1) up
    else
      sortBetween call s fuel (p + 1) up
      sortBetween call s fuel lo (p - 1)

end Sorter

def sort (call : Callback) (args : List Value) : Eval (List Value) := do
  let b : Builtin := .table .sort
  let t ← listArg b args 0 [Event.index, Event.newIndex, Event.length]
  let n ← lengthOf call t
  if n < 2 then return []
  else if 0x7fffffff ≤ n then bad b 0 "array too big"
  else
    let before ← match optArg args 1 with
      | .nil => pure fun (x y : Value) => do
          return (← Eval.settle call (below (← get) false x y)).truthy
      | _ => do
        let f ← functionArg b args 1
        pure fun (x y : Value) => do return ((← call f [x, y]).headD .nil).truthy
    Sorter.sortBetween call ⟨t, before⟩ n.toNat 1 n.toNat
    return []

def table (call : Callback) (f : TableFunction) (args : List Value) : Eval (List Value) := do
  match f with
  | .concat => concatItems call args
  | .insert => insert call args
  | .move => move call args
  | .pack =>
    let t := (Table.ofList args).set (Value.ofText "n") (ofInt args.length)
    return [← Eval.newTable t]
  | .remove => remove call args
  | .sort => sort call args
  | .unpack => unpack call args

end Pagewright.Script.Library
