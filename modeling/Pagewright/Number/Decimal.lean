import Pagewright.Number.Double

/-!
Decimal numbers `digits * 10 ^ exponent`: the shortest one that a double is the nearest double of,
the one with a given number of digits, and how they are written out.
-/
namespace Pagewright

/-- The number `digits * 10 ^ exponent`. -/
structure Decimal where
  digits : Nat
  exponent : Int
deriving DecidableEq, Repr, Inhabited

namespace Decimal

def digitChars (n : Nat) : List Char :=
  Nat.toDigits 10 n

def intText (i : Int) : String :=
  let cs := digitChars i.natAbs
  String.ofList (if i < 0 then '-' :: cs else cs)

/-- Written positionally, whatever the size: zeros fill the places up to the point. -/
def plain (d : Decimal) : String :=
  let cs := digitChars d.digits
  match d.exponent with
  | .ofNat e => String.ofList (if d.digits = 0 then cs else cs ++ List.replicate e '0')
  | .negSucc e =>
    let places := e + 1
    let padded := List.replicate (places + 1 - cs.length) '0' ++ cs
    let whole := padded.length - places
    String.ofList (padded.take whole ++ '.' :: padded.drop whole)

def trimmed (d : Decimal) : Nat → Decimal
  | 0 => d
  | n + 1 =>
    if d.digits ≠ 0 ∧ d.digits % 10 = 0 then trimmed ⟨d.digits / 10, d.exponent + 1⟩ n else d

def scaled (num den : Nat) : Int → Nat × Nat
  | .ofNat e => (num, den * Nat.pow 10 e)
  | .negSucc e => (num * Nat.pow 10 (e + 1), den)

/-- The place of the first digit: the greatest `k` with `10 ^ k ≤ num / den`. -/
def leadingPlace (num den : Nat) : Int :=
  let guess := Int.fdiv (((num.log2 : Int) - den.log2) * 30103) 100000
  let atLeast (k : Int) : Bool := let (n, d) := scaled num den k; d ≤ n
  if !atLeast guess then guess - 1
  else if atLeast (guess + 1) then guess + 1
  else guess

/-- The numbers that a double is nearest to lie between `low / den` and `high / den`. -/
structure Basin where
  num : Nat
  low : Nat
  high : Nat
  den : Nat
  /-- Whether the ends belong to it: they are ties, and ties go to even significands. -/
  closed : Bool
deriving DecidableEq, Repr

/-- The basin of a finite magnitude. Below a power of two the gap is half as wide. -/
def Basin.of (m : Nat) : Basin :=
  let s := Double.significand m
  let below := if s = Double.leadingBit ∧ Double.exponent m ≠ -1074 then 1 else 2
  let (scale, den) := match Double.exponent m - 2 with
    | .ofNat e => (Nat.pow 2 e, 1)
    | .negSucc e => (1, Nat.pow 2 (e + 1))
  ⟨4 * s * scale, (4 * s - below) * scale, (4 * s + 2) * scale, den, s % 2 == 0⟩

def Basin.contains (b : Basin) (num den : Nat) : Bool :=
  let low := b.low * den
  let high := b.high * den
  let x := num * b.den
  if b.closed then low ≤ x && x ≤ high else low < x && x < high

/-- On the grid of `10 ^ e`, the neighbour of the double that lies in its basin: of two the nearer,
of two equally near the greater. -/
def Basin.gridPoint? (b : Basin) (e : Int) : Option Decimal :=
  let (num, den) := scaled b.num b.den e
  let d := num / den
  let inside (x : Nat) : Bool :=
    match e with
    | .ofNat k => b.contains (x * Nat.pow 10 k) 1
    | .negSucc k => b.contains x (Nat.pow 10 (k + 1))
  match inside d, inside (d + 1) with
  | true, true => some ⟨if 2 * (num % den) < den then d else d + 1, e⟩
  | true, false => some ⟨d, e⟩
  | false, true => some ⟨d + 1, e⟩
  | false, false => none

/-- The decimal of fewest digits in the basin of a finite magnitude. Seventeen digits are always
enough. -/
def shortest (m : Nat) : Decimal :=
  if m = 0 then ⟨0, 0⟩
  else
    let b := Basin.of m
    let k := leadingPlace b.num b.den
    match (List.range 17).findSome? fun (n : Nat) => b.gridPoint? (k - n) with
    | some d => d.trimmed 17
    | none => ⟨b.num / b.den, 0⟩

/-- The nearest decimal of `n` digits, ties to the even one. A carry past the first digit makes it
one place longer and is taken back by dropping a zero. -/
def significant (m n : Nat) : Decimal :=
  if m = 0 then ⟨0, 0⟩
  else
    let (num, den) := Double.ratio m
    let e := leadingPlace num den + 1 - n
    let (num, den) := scaled num den e
    let d := Double.roundDiv num den
    if d = Nat.pow 10 n then ⟨d / 10, e + 1⟩ else ⟨d, e⟩

def fixed (m places : Nat) : Decimal :=
  let (num, den) := Double.ratio m
  ⟨Double.roundDiv (num * Nat.pow 10 places) den, -places⟩

def scientific (d : Decimal) (n : Nat) (mark : Char) : String :=
  let cs := digitChars d.digits
  let cs := cs ++ List.replicate (n - cs.length) '0'
  let e : Int := if d.digits = 0 then 0 else d.exponent + (digitChars d.digits).length - 1
  let es := digitChars e.natAbs
  let es := List.replicate (2 - es.length) '0' ++ es
  let fraction := cs.drop 1
  String.ofList (cs.take 1 ++ (if fraction.isEmpty then [] else '.' :: fraction)
    ++ mark :: (if e < 0 then '-' else '+') :: es)

/-- The layout with `n` significant digits and no zeros at the end: positional where the first digit
stands between the fourth place after the point and the `n`-th before it. -/
def general (m n : Nat) (mark : Char) : String :=
  let n := max n 1
  let d := significant m n
  let place : Int := if m = 0 then 0 else d.exponent + n - 1
  let t := d.trimmed n
  if place < -4 ∨ (n : Int) ≤ place then t.scientific (digitChars t.digits).length mark else t.plain

end Decimal

end Pagewright
