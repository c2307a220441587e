/-!
Doubles by their bits. A finite double is a sign and `significand * 2 ^ exponent`; rounding a ratio
of naturals to the nearest double is exact, ties go to the even significand.
-/
namespace Pagewright

structure Double where
  bits : UInt64
deriving DecidableEq, Repr, Inhabited

namespace Double

def ofFloat (x : Float) : Double := ⟨x.toBits⟩

def toFloat (d : Double) : Float := Float.ofBits d.bits

def signBit : Nat := 0x8000000000000000

/-- The weight of a significand's leading bit, which the bits of a double leave out. -/
def leadingBit : Nat := 0x10000000000000

def negative (d : Double) : Bool := signBit ≤ d.bits.toNat

/-- The bits below the sign. They order the magnitudes. -/
def magnitude (d : Double) : Nat := d.bits.toNat % signBit

def infiniteMagnitude : Nat := 2047 * leadingBit

def ofMagnitude (negative : Bool) (m : Nat) : Double :=
  ⟨UInt64.ofNat (if negative then signBit + m else m)⟩

def infinity : Double := ofMagnitude false infiniteMagnitude

/-- What an invalid operation gives; its sign bit is set. -/
def invalid : Double := ⟨0xfff8000000000000⟩

def isNaN (d : Double) : Bool := infiniteMagnitude < d.magnitude

def isInfinite (d : Double) : Bool := d.magnitude == infiniteMagnitude

def isFinite (d : Double) : Bool := d.magnitude < infiniteMagnitude

/-- A magnitude below `infiniteMagnitude` is `significand * 2 ^ exponent`; the implied leading bit is
part of the significand. -/
def significand (m : Nat) : Nat :=
  if m / leadingBit = 0 then m else leadingBit + m % leadingBit

def exponent (m : Nat) : Int :=
  if m / leadingBit = 0 then -1074 else (m / leadingBit : Nat) - 1075

def ratio (m : Nat) : Nat × Nat :=
  let s := significand m
  match exponent m with
  | .ofNat e => (s * Nat.pow 2 e, 1)
  | .negSucc e => (s, Nat.pow 2 (e + 1))

/-- The quotient rounded to the nearest natural; a tie goes to the even one. -/
def roundDiv (num den : Nat) : Nat :=
  let q := num / den
  let twice := 2 * (num % den)
  if twice < den || (twice == den && q % 2 == 0) then q else q + 1

/-- The exponent of two in which `num / den` is to be rounded: 53 bits are kept, or those above the
least subnormal. -/
def gridExponent (num den : Nat) : Int :=
  let e : Int := (num.log2 : Int) - den.log2 - 52
  -- The quotient of the leading bits may fall short of one.
  let e := if num.log2 < den.log2 then
      (if num * Nat.pow 2 (den.log2 - num.log2) < den then e - 1 else e)
    else (if num < den * Nat.pow 2 (num.log2 - den.log2) then e - 1 else e)
  max e (-1074)

/-- The magnitude nearest to `num / den`. A carry out of the significand moves the exponent on, past
the last finite magnitude up to infinity. -/
def nearestMagnitude (num den : Nat) : Nat :=
  if num = 0 then 0
  else
    let e := gridExponent num den
    let s := match e with
      | .ofNat k => roundDiv num (den * Nat.pow 2 k)
      | .negSucc k => roundDiv (num * Nat.pow 2 (k + 1)) den
    let m := (e + 1074).toNat * leadingBit + s
    if m < infiniteMagnitude then m else infiniteMagnitude

def ofRatio (negative : Bool) (num den : Nat) : Double :=
  ofMagnitude negative (nearestMagnitude num den)

/-- The double nearest to `digits * 10 ^ e`. Exponents far outside the range are decided without
building the power. -/
def ofDecimal (negative : Bool) (digits : Nat) (e : Int) : Double :=
  if digits = 0 then ofMagnitude negative 0
  else
    let size := (Nat.log2 digits : Int) * 30103 / 100000
    if size + e > 320 then ofMagnitude negative infiniteMagnitude
    else if size + e < -360 then ofMagnitude negative 0
    else match e with
      | .ofNat k => ofRatio negative (digits * Nat.pow 10 k) 1
      | .negSucc k => ofRatio negative digits (Nat.pow 10 (k + 1))

def ofBinary (negative : Bool) (digits : Nat) (e : Int) : Double :=
  if digits = 0 then ofMagnitude negative 0
  else if (Nat.log2 digits : Int) + e > 1100 then ofMagnitude negative infiniteMagnitude
  else if (Nat.log2 digits : Int) + e < -1200 then ofMagnitude negative 0
  else match e with
    | .ofNat k => ofRatio negative (digits * Nat.pow 2 k) 1
    | .negSucc k => ofRatio negative digits (Nat.pow 2 (k + 1))

def ofInt (i : Int) : Double :=
  ofRatio (i < 0) i.natAbs 1

def floorInt (d : Double) : Int :=
  let (num, den) := ratio d.magnitude
  if d.negative then -((num + den - 1) / den : Nat) else (num / den : Nat)

def ceilInt (d : Double) : Int :=
  let (num, den) := ratio d.magnitude
  if d.negative then -(num / den : Nat) else ((num + den - 1) / den : Nat)

def toInt? (d : Double) : Option Int :=
  if d.isFinite then
    let (num, den) := ratio d.magnitude
    if num % den = 0 then
      let n : Int := (num / den : Nat)
      some (if d.negative then -n else n)
    else none
  else none

def floor (d : Double) : Double :=
  if d.isFinite then
    let i := d.floorInt
    if i = 0 then ofMagnitude d.negative 0 else ofInt i
  else d

def ceil (d : Double) : Double :=
  if d.isFinite then
    let i := d.ceilInt
    if i = 0 then ofMagnitude d.negative 0 else ofInt i
  else d

def neg (d : Double) : Double :=
  ofMagnitude (!d.negative) d.magnitude

def abs (d : Double) : Double :=
  ofMagnitude false d.magnitude

/-- The result of an operation on two doubles: an operand that is no number passes through, and one
that comes up afresh is `invalid`. -/
def binary (f : Float → Float → Float) (a b : Double) : Double :=
  if a.isNaN then a
  else if b.isNaN then b
  else
    let r := f a.toFloat b.toFloat
    if r.isNaN then invalid else ofFloat r

def add : Double → Double → Double := binary (· + ·)
def sub : Double → Double → Double := binary (· - ·)
def mul : Double → Double → Double := binary (· * ·)
def div : Double → Double → Double := binary (· / ·)

/-- One to any power and any number to the power zero are one. -/
def pow (a b : Double) : Double :=
  if b.magnitude = 0 then ofInt 1
  else if a = ofInt 1 then a
  else binary Float.pow a b

def floorDiv (a b : Double) : Double := (div a b).floor

def floorMod (a b : Double) : Double :=
  if a.isNaN then a
  else if b.isNaN then b
  else if a.isInfinite || b.magnitude = 0 then invalid
  else if b.isInfinite then
    if a.magnitude = 0 || a.negative == b.negative then a else b
  else
    let (an, ad) := ratio a.magnitude
    let (bn, bd) := ratio b.magnitude
    -- Both over the common denominator; denominators are powers of two.
    let d := max ad bd
    let r := an * (d / ad) % (bn * (d / bd))
    let rest := ofRatio a.negative r d
    if r = 0 || a.negative == b.negative then rest else add rest b

/-- Order of the exact values; `none` if one is no number. -/
def compare? (a b : Double) : Option Ordering :=
  if a.isNaN || b.isNaN then none
  else if a.magnitude = 0 && b.magnitude = 0 then some .eq
  else some (match a.negative, b.negative with
    | true, false => .lt
    | false, true => .gt
    | false, false => compare a.magnitude b.magnitude
    | true, true => compare b.magnitude a.magnitude)

def compareInt? (i : Int) (d : Double) : Option Ordering :=
  if d.isNaN then none
  else if d.isInfinite then some (if d.negative then .gt else .lt)
  else
    let (num, den) := ratio d.magnitude
    let v : Int := num
    some (compare (i * den) (if d.negative then -v else v))

end Double

end Pagewright
