import Pagewright.Script.Value
import Pagewright.Number.Decimal

/-!
Numbers and their texts in scripts. A numeral is an integer where it can be one, else a float; a
float's text has up to 14 digits and always shows that it is no integer.
-/
namespace Pagewright.Script

def isSpace (b : UInt8) : Bool := (9 ≤ b && b ≤ 13) || b = 32

def isDigit (b : UInt8) : Bool := 48 ≤ b && b ≤ 57

def isLetter (b : UInt8) : Bool := (65 ≤ b && b ≤ 90) || (97 ≤ b && b ≤ 122)

def digitValue (b : UInt8) : Option Nat :=
  if isDigit b then some (b.toNat - 48)
  else if 65 ≤ b && b ≤ 90 then some (b.toNat - 55)
  else if 97 ≤ b && b ≤ 122 then some (b.toNat - 87)
  else none

def isHexDigit (b : UInt8) : Bool :=
  match digitValue b with
  | some d => d < 16
  | none => false

def numberOf (base : Nat) (ds : Bytes) : Nat :=
  ds.foldl (fun n b => n * base + (digitValue b).getD 0) 0

namespace Numeral

def sign : Bytes → Bool × Bytes
  | 45 :: rest => (true, rest)
  | 43 :: rest => (false, rest)
  | bs => (false, bs)

/-- The exponent that follows a mark, and 0 at the end; `none` if anything else follows. -/
def exponent? (marks : List UInt8) : Bytes → Option Int
  | [] => some 0
  | m :: rest =>
    if marks.contains m then
      let (negative, ds) := sign rest
      if ds.isEmpty || !ds.all isDigit then none
      else some (if negative then -(numberOf 10 ds : Int) else numberOf 10 ds)
    else none

def places (digit : UInt8 → Bool) (bs : Bytes) : Bytes × Bytes × Bytes :=
  let whole := bs.takeWhile digit
  match bs.dropWhile digit with
  | 46 :: rest => (whole, rest.takeWhile digit, rest.dropWhile digit)
  | rest => (whole, [], rest)

def float? (negative : Bool) (bs : Bytes) : Option Double :=
  match bs with
  | 48 :: x :: rest =>
    if x = 120 || x = 88 then
      let (whole, fraction, rest) := places isHexDigit rest
      if whole.isEmpty && fraction.isEmpty then none
      else (exponent? [112, 80] rest).map fun e =>
        Double.ofBinary negative (numberOf 16 (whole ++ fraction)) (e - 4 * fraction.length)
    else decimal bs
  | _ => decimal bs
where
  decimal (bs : Bytes) : Option Double :=
    let (whole, fraction, rest) := places isDigit bs
    if whole.isEmpty && fraction.isEmpty then none
    else (exponent? [101, 69] rest).map fun e =>
      Double.ofDecimal negative (numberOf 10 (whole ++ fraction)) (e - fraction.length)

/-- An integer: decimal digits in range, or hexadecimal digits, of which the last 64 bits count. -/
def integer? (negative : Bool) (bs : Bytes) : Option Int64 :=
  match bs with
  | 48 :: x :: rest =>
    if x = 120 || x = 88 then
      if rest.isEmpty || !rest.all isHexDigit then none
      else
        let n : Int := numberOf 16 rest
        some (Int64.ofInt (if negative then -n else n))
    else decimal bs
  | _ => decimal bs
where
  decimal (bs : Bytes) : Option Int64 :=
    if bs.isEmpty || !bs.all isDigit then none
    else
      let n := numberOf 10 bs
      if n < 0x8000000000000000 then some (Int64.ofInt (if negative then -(n : Int) else n))
      else if negative && n = 0x8000000000000000 then some Int64.minValue
      else none

def trimmed (bs : Bytes) : Bytes :=
  ((bs.dropWhile isSpace).reverse.dropWhile isSpace).reverse

def literal? (bs : Bytes) : Option Literal :=
  let (negative, body) := sign (trimmed bs)
  match integer? negative body with
  | some i => some (.integer i)
  | none => (float? negative body).map .float

def read? (bs : Bytes) : Option Value := (literal? bs).map Literal.value

def ofInt (i : Int64) : String := Decimal.intText i.toInt

/-- The text of a float: up to 14 significant digits, with a fraction of zero if it would else read
as an integer. -/
def ofDouble (d : Double) : String :=
  let mark := if d.negative then "-" else ""
  if d.isNaN then mark ++ "nan"
  else if d.isInfinite then mark ++ "inf"
  else
    let s := mark ++ Decimal.general d.magnitude 14 'e'
    if s.toList.all fun c => c = '-' || c.isDigit then s ++ ".0" else s

end Numeral

end Pagewright.Script
