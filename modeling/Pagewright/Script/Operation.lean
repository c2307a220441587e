import Pagewright.Script.Numeral
import Pagewright.Script.Store

/-!
Operations on values. Each has an `Answer`: a value, a function that is to be called for it, or a
fault. Integers wrap around; an integer and a float compare by their exact values.
-/
namespace Pagewright.Script

inductive Answer where
  | value (v : Value)
  | call (function : Value) (arguments : List Value)
  | fault (f : Fault)

/-! The names of metamethods. -/

namespace Event

def add : Bytes := Bytes.ofText "__add"
def sub : Bytes := Bytes.ofText "__sub"
def mul : Bytes := Bytes.ofText "__mul"
def div : Bytes := Bytes.ofText "__div"
def floorDiv : Bytes := Bytes.ofText "__idiv"
def mod : Bytes := Bytes.ofText "__mod"
def pow : Bytes := Bytes.ofText "__pow"
def negate : Bytes := Bytes.ofText "__unm"
def and : Bytes := Bytes.ofText "__band"
def or : Bytes := Bytes.ofText "__bor"
def xor : Bytes := Bytes.ofText "__bxor"
def complement : Bytes := Bytes.ofText "__bnot"
def left : Bytes := Bytes.ofText "__shl"
def right : Bytes := Bytes.ofText "__shr"
def concat : Bytes := Bytes.ofText "__concat"
def length : Bytes := Bytes.ofText "__len"
def equal : Bytes := Bytes.ofText "__eq"
def less : Bytes := Bytes.ofText "__lt"
def lessEqual : Bytes := Bytes.ofText "__le"
def index : Bytes := Bytes.ofText "__index"
def newIndex : Bytes := Bytes.ofText "__newindex"
def call : Bytes := Bytes.ofText "__call"
def close : Bytes := Bytes.ofText "__close"
def tostring : Bytes := Bytes.ofText "__tostring"
def name : Bytes := Bytes.ofText "__name"
def pairs : Bytes := Bytes.ofText "__pairs"
def metatable : Bytes := Bytes.ofText "__metatable"

def ofArith : ArithOp → Bytes
  | .add => add
  | .sub => sub
  | .mul => mul
  | .div => div
  | .floorDiv => floorDiv
  | .mod => mod
  | .pow => pow

def ofBits : BitOp → Bytes
  | .and => and
  | .or => or
  | .xor => xor
  | .left => left
  | .right => right

end Event

namespace Store

def metatable? (s : Store) : Value → Option Nat
  | .table r => (s.heap.table r).metatable
  | .string _ => s.stringMeta
  | _ => none

def metamethod (s : Store) (v : Value) (event : Bytes) : Value :=
  match s.metatable? v with
  | some m => (s.heap.table m).get (.string event)
  | none => .nil

def metamethodOf (s : Store) (event : Bytes) (a b : Value) : Value :=
  match s.metamethod a event with
  | .nil => s.metamethod b event
  | f => f

end Store

namespace Value

/-- The number a value stands for in arithmetic: itself, or what a string reads as. -/
def toNumber? : Value → Option Value
  | .integer i => some (.integer i)
  | .float d => some (.float d)
  | .string s => Numeral.read? s
  | _ => none

def toDouble? : Value → Option Double
  | .integer i => some (.ofInt i.toInt)
  | .float d => some d
  | _ => none

def toInteger? : Value → Option Int64
  | .integer i => some i
  | .float d => intOfDouble? d
  | _ => none

def isNumber : Value → Bool
  | .integer _ | .float _ => true
  | _ => false

def toBytes? : Value → Option Bytes
  | .string s => some s
  | .integer i => some (Bytes.ofText (Numeral.ofInt i))
  | .float d => some (Bytes.ofText (Numeral.ofDouble d))
  | _ => none

def rawEqual : Value → Value → Bool
  | .integer i, .float d => Double.compareInt? i.toInt d = some .eq
  | .float d, .integer i => Double.compareInt? i.toInt d = some .eq
  | .float a, .float b => Double.compare? a b = some .eq
  | a, b => a = b

end Value

def floorDivInt (a b : Int64) : Int64 := Int64.ofInt (Int.fdiv a.toInt b.toInt)

def floorModInt (a b : Int64) : Int64 := Int64.ofInt (Int.fmod a.toInt b.toInt)

/-- Arithmetic on two integers that stays with integers; division and powers are not of it. -/
def arithInts (op : ArithOp) (a b : Int64) : Option (Except Fault Int64) :=
  match op with
  | .add => some (.ok (a + b))
  | .sub => some (.ok (a - b))
  | .mul => some (.ok (a * b))
  | .floorDiv => some (if b = 0 then .error .divisionByZero else .ok (floorDivInt a b))
  | .mod => some (if b = 0 then .error .moduloByZero else .ok (floorModInt a b))
  | .div | .pow => none

def arithDoubles : ArithOp → Double → Double → Double
  | .add => Double.add
  | .sub => Double.sub
  | .mul => Double.mul
  | .div => Double.div
  | .floorDiv => Double.floorDiv
  | .mod => Double.floorMod
  | .pow => Double.pow

def arithNumbers (op : ArithOp) (a b : Value) : Answer :=
  let floats : Answer := match a.toDouble?, b.toDouble? with
    | some x, some y => .value (.float (arithDoubles op x y))
    | _, _ => .fault (.arithmeticOn b.typeName)
  match a, b with
  | .integer i, .integer j =>
    match arithInts op i j with
    | some (.ok k) => .value (.integer k)
    | some (.error f) => .fault f
    | none => floats
  | _, _ => floats

/-- Arithmetic. A metamethod comes before the reading of strings as numbers. -/
def arith (s : Store) (op : ArithOp) (a b : Value) : Answer :=
  if a.isNumber && b.isNumber then arithNumbers op a b
  else match s.metamethodOf (Event.ofArith op) a b with
    | .nil =>
      match a.toNumber?, b.toNumber? with
      | some x, some y => arithNumbers op x y
      | none, _ => .fault (.arithmeticOn a.typeName)
      | _, none => .fault (.arithmeticOn b.typeName)
    | f => .call f [a, b]

/-- A shift to the left, or to the right by a negative distance; what leaves the word is lost. -/
def shiftLeft (a b : Int64) : Int64 :=
  let n := b.toInt
  if n ≤ -64 || 64 ≤ n then 0
  else if 0 ≤ n then ⟨a.toUInt64 <<< UInt64.ofNat n.toNat⟩
  else ⟨a.toUInt64 >>> UInt64.ofNat (-n).toNat⟩

def bitInts : BitOp → Int64 → Int64 → Int64
  | .and, a, b => a &&& b
  | .or, a, b => a ||| b
  | .xor, a, b => a ^^^ b
  | .left, a, b => shiftLeft a b
  | .right, a, b => shiftLeft a (0 - b)

/-- An operation on bits. Strings are never read as numbers here. -/
def bitwise (s : Store) (op : BitOp) (a b : Value) : Answer :=
  match a.toInteger?, b.toInteger? with
  | some i, some j => .value (.integer (bitInts op i j))
  | _, _ =>
    match s.metamethodOf (Event.ofBits op) a b with
    | .nil =>
      if a.isNumber && b.isNumber then .fault .noInteger
      else .fault (.bitwiseOn (if a.isNumber then b.typeName else a.typeName))
    | f => .call f [a, b]

def concat (s : Store) (a b : Value) : Answer :=
  match a.toBytes?, b.toBytes? with
  | some x, some y => .value (.string (x ++ y))
  | x, _ =>
    match s.metamethodOf Event.concat a b with
    | .nil => .fault (.concatenation (if x.isSome then b.typeName else a.typeName))
    | f => .call f [a, b]

def negate (s : Store) (a : Value) : Answer :=
  match a with
  | .integer i => .value (.integer (0 - i))
  | .float d => .value (.float d.neg)
  | a =>
    match s.metamethod a Event.negate, a.toNumber? with
    | .nil, some (.integer i) => .value (.integer (0 - i))
    | .nil, some (.float d) => .value (.float d.neg)
    | .nil, _ => .fault (.arithmeticOn a.typeName)
    | f, _ => .call f [a, a]

def complement (s : Store) (a : Value) : Answer :=
  match a.toInteger? with
  | some i => .value (.integer (0 - i - 1))
  | none =>
    match s.metamethod a Event.complement with
    | .nil => .fault (if a.isNumber then .noInteger else .bitwiseOn a.typeName)
    | f => .call f [a, a]

def length (s : Store) (a : Value) : Answer :=
  match a with
  | .string b => .value (.integer (Int64.ofNat b.length))
  | a =>
    match s.metamethod a Event.length, a with
    | .nil, .table r => .value (.integer (Int64.ofNat (s.heap.table r).border))
    | .nil, a => .fault (.length a.typeName)
    | f, _ => .call f [a]

def unary (s : Store) (op : UnaryOp) (a : Value) : Answer :=
  match op with
  | .negate => negate s a
  | .not => .value (.boolean !a.truthy)
  | .length => length s a
  | .complement => complement s a

def compareBytes : Bytes → Bytes → Ordering
  | [], [] => .eq
  | [], _ :: _ => .lt
  | _ :: _, [] => .gt
  | a :: as, b :: bs => if a < b then .lt else if b < a then .gt else compareBytes as bs

/-- Order of two numbers or two strings; `some none` if a NaN is among them. -/
def order? : Value → Value → Option (Option Ordering)
  | .integer i, .integer j => some (some (compare i.toInt j.toInt))
  | .integer i, .float d => some (Double.compareInt? i.toInt d)
  | .float d, .integer i => some ((Double.compareInt? i.toInt d).map Ordering.swap)
  | .float a, .float b => some (Double.compare? a b)
  | .string a, .string b => some (some (compareBytes a b))
  | _, _ => none

def below (s : Store) (orEqual : Bool) (a b : Value) : Answer :=
  match order? a b with
  | some o => .value (.boolean (match o with
    | some .lt => true
    | some .eq => orEqual
    | _ => false))
  | none =>
    match s.metamethodOf (if orEqual then Event.lessEqual else Event.less) a b with
    | .nil => .fault (.comparison a.typeName b.typeName)
    | f => .call f [a, b]

/-- Equality. Only two tables, or two objects of the host, are compared by metamethods. -/
def equal (s : Store) (a b : Value) : Answer :=
  if a.rawEqual b then .value (.boolean true)
  else match a, b with
    | .table _, .table _ =>
      match s.metamethodOf Event.equal a b with
      | .nil => .value (.boolean false)
      | f => .call f [a, b]
    | _, _ => .value (.boolean false)

/-- A comparison; the flag tells that the truth of the answer is to be turned around. -/
def compareValues (s : Store) (op : CompareOp) (a b : Value) : Answer × Bool :=
  match op with
  | .equal => (equal s a b, false)
  | .unequal => (equal s a b, true)
  | .less => (below s false a b, false)
  | .lessEqual => (below s true a b, false)
  | .greater => (below s false b a, false)
  | .greaterEqual => (below s true b a, false)

def longestChain : Nat := 2000

def index (s : Store) : Nat → Value → Value → Answer
  | 0, _, _ => .fault (.endlessChain "__index")
  | fuel + 1, object, key =>
    let own := match object with
      | .table r => (s.heap.table r).get key.normalKey
      | _ => .nil
    match own with
    | .nil =>
      match s.metamethod object Event.index, object with
      | .nil, .table _ => .value .nil
      | .nil, _ => .fault (.index object.typeName)
      | handler, _ => if handler.isFunction then .call handler [object, key]
        else index s fuel handler key
    | v => .value v

inductive Storing where
  | field (table : Nat) (key : Value)
  | call (function : Value) (arguments : List Value)
  | fault (f : Fault)

def checkedKey (k : Value) : Except Fault Value :=
  match k.normalKey with
  | .nil => .error .nilKey
  | .float d => if d.isNaN then .error .nanKey else .ok (.float d)
  | k => .ok k

def Storing.into (table : Nat) (key : Value) : Storing :=
  match checkedKey key with
  | .ok k => .field table k
  | .error f => .fault f

def storing (s : Store) : Nat → Value → Value → Value → Storing
  | 0, _, _, _ => .fault (.endlessChain "__newindex")
  | fuel + 1, object, key, value =>
    match object with
    | .table r =>
      match (s.heap.table r).get key.normalKey with
      | .nil =>
        match s.metamethod object Event.newIndex with
        | .nil => .into r key
        | handler => if handler.isFunction then .call handler [object, key, value]
          else storing s fuel handler key value
      | _ => .into r key
    | _ =>
      match s.metamethod object Event.newIndex with
      | .nil => .fault (.index object.typeName)
      | handler => if handler.isFunction then .call handler [object, key, value]
        else storing s fuel handler key value

namespace Eval

def settle (call : Callback) : Answer → Eval Value
  | .value v => return v
  | .call f args => do return (← call f args).headD .nil
  | .fault f => fault f

def getField (call : Callback) (object key : Value) : Eval Value := do
  settle call (index (← get) longestChain object key)

def putField (call : Callback) (object key value : Value) : Eval Unit := do
  match storing (← get) longestChain object key value with
  | .field r k => setField r k value
  | .call f args => discard <| call f args
  | .fault f => fault f

end Eval

end Pagewright.Script
