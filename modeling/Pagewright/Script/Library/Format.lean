import Pagewright.Number.Decimal
import Pagewright.Script.Library.Arguments
import Pagewright.Script.Pattern

/-!
Formatted text: a directive names how the next argument is written. It has flags, a width, a
precision and a letter; which flags may stand depends on the letter.
-/
namespace Pagewright.Script.Library.Format

structure Directive where
  flags : Bytes
  width : Nat
  precision : Option Nat
  letter : UInt8
  /-- As it stands in the format. -/
  written : Bytes
deriving DecidableEq, Repr

namespace Directive

def hasFlag (d : Directive) (flag : Char) : Bool := d.flags.contains (UInt8.ofNat flag.toNat)

def twoDigits (bs : Bytes) : Bytes × Bytes :=
  let ds := (bs.take 2).takeWhile isDigit
  (ds, bs.drop ds.length)

def read? (bs : Bytes) : Option (Directive × Bytes) :=
  let isFlag (b : UInt8) : Bool := (Bytes.ofText "-+ #0").contains b
  let flags := bs.takeWhile isFlag
  let (width, rest) := twoDigits (bs.drop flags.length)
  let (precision, rest) : Option Nat × Bytes := match rest with
    | 46 :: rest =>
      let (ds, rest) := twoDigits rest
      (some (numberOf 10 ds), rest)
    | rest => (none, rest)
  match rest with
  | [] => none
  | letter :: rest =>
    some (⟨flags, numberOf 10 width, precision, letter, bs.take (bs.length - rest.length)⟩, rest)

def isBare (d : Directive) : Bool := d.written.length = 1

/-- Whether the flags are among those that the letter takes, and the precision, if it takes none, is
missing. -/
def allows (d : Directive) (flags : String) (precise : Bool) : Bool :=
  d.flags.all (Bytes.ofText flags).contains && (precise || d.precision.isNone)

def fill (d : Directive) (zeros : Bool) (sign body : String) : Bytes :=
  let n := d.width - (sign.length + body.length)
  Bytes.ofText (
    if d.hasFlag '-' then sign ++ body ++ String.ofList (List.replicate n ' ')
    else if zeros && d.hasFlag '0' then sign ++ String.ofList (List.replicate n '0') ++ body
    else String.ofList (List.replicate n ' ') ++ sign ++ body)

def sign (d : Directive) (negative : Bool) : String :=
  if negative then "-"
  else if d.hasFlag '+' then "+"
  else if d.hasFlag ' ' then " "
  else ""

/-- At least as many digits as the precision says; zero has none if that is zero. -/
def digits (d : Directive) (base n : Nat) : String :=
  let ds := if n = 0 && d.precision = some 0 then [] else Nat.toDigits base n
  String.ofList (List.replicate (d.precision.getD 1 - ds.length) '0' ++ ds)

end Directive

def raised (upper : Bool) (s : String) : String := if upper then s.toUpper else s

def integer (d : Directive) (i : Int64) : Bytes :=
  let zeros := d.precision.isNone
  let word := i.toUInt64.toNat
  match d.letter with
  | 111 =>
    let ds := d.digits 8 word
    d.fill zeros "" (if d.hasFlag '#' && !ds.startsWith "0" then "0" ++ ds else ds)
  | 117 => d.fill zeros "" (d.digits 10 word)
  | 120 | 88 =>
    let upper := d.letter = 88
    d.fill zeros (raised upper (if d.hasFlag '#' && word ≠ 0 then "0x" else ""))
      (raised upper (d.digits 16 word))
  | _ => d.fill zeros (d.sign (i < 0)) (d.digits 10 i.toInt.natAbs)

def hexadecimal (m : Nat) : String :=
  let (lead, e) : Nat × Int :=
    if m < Double.leadingBit then (0, if m = 0 then 0 else -1022)
    else (1, (m / Double.leadingBit : Nat) - 1023)
  let ds := Nat.toDigits 16 (m % Double.leadingBit)
  let ds := List.replicate (13 - ds.length) '0' ++ ds
  let ds := (ds.reverse.dropWhile (· = '0')).reverse
  "0x" ++ toString lead ++ (if ds.isEmpty then "" else "." ++ String.ofList ds) ++ "p"
    ++ (if e < 0 then "" else "+") ++ Decimal.intText e

def float (d : Directive) (x : Double) : Bytes :=
  let upper := d.letter < 97
  let m := x.magnitude
  let sign := d.sign x.negative
  let places := d.precision.getD 6
  let pointed (s : String) : String :=
    if d.hasFlag '#' && !s.contains '.' then s ++ "." else s
  if x.isNaN then d.fill false sign (raised upper "nan")
  else if x.isInfinite then d.fill false sign (raised upper "inf")
  else d.fill true sign (raised upper (match d.letter with
    | 102 | 70 => pointed (Decimal.fixed m places).plain
    | 101 | 69 => (Decimal.significant m (places + 1)).scientific (places + 1) 'e'
    | 103 | 71 => Decimal.general m places 'e'
    | _ => hexadecimal m))

def quotedBytes : Bytes → Bytes
  | [] => []
  | b :: rest =>
    (if b = 34 || b = 92 || b = 10 then [92, b]
    else if Pattern.isControl b then
      let ds := Nat.toDigits 10 b.toNat
      let ds := if isDigit (rest.headD 0) then List.replicate (3 - ds.length) '0' ++ ds else ds
      92 :: Utf8.encode ds
    else [b]) ++ quotedBytes rest

def literal? : Value → Option Bytes
  | .nil => some (Bytes.ofText "nil")
  | .boolean b => some (Bytes.ofText (if b then "true" else "false"))
  | .string s => some (34 :: quotedBytes s ++ [34])
  | .integer i =>
    some (Bytes.ofText (if i = Int64.minValue then "0x8000000000000000" else Numeral.ofInt i))
  | .float d => some (Bytes.ofText (
      if d.isNaN then "(0/0)"
      else if d.isInfinite then (if d.negative then "-1e9999" else "1e9999")
      else (if d.negative then "-" else "") ++ hexadecimal d.magnitude))
  | _ => none

def apply (call : Callback) (args : List Value) (i : Nat) (d : Directive) : Eval Bytes := do
  let f : Builtin := .string .format
  let require (ok : Bool) : Eval Unit :=
    if ok then pure ()
    else Eval.fault (.format ("invalid conversion '%" ++ d.written.toText ++ "' to 'format'"))
  if (arg? args i).isNone then bad f i "no value"
  else match d.letter with
  | 99 =>
    let n ← integerArg f args i
    require (d.allows "-" false)
    let b := [UInt8.ofNat (n % 256).toNat]
    let blanks := List.replicate (d.width - 1) 32
    return if d.hasFlag '-' then b ++ blanks else blanks ++ b
  | 100 | 105 =>
    let n ← integerArg f args i
    require (d.allows "-+0 " true)
    return integer d (Int64.ofInt n)
  | 117 =>
    let n ← integerArg f args i
    require (d.allows "-0" true)
    return integer d (Int64.ofInt n)
  | 111 | 120 | 88 =>
    let n ← integerArg f args i
    require (d.allows "-#0" true)
    return integer d (Int64.ofInt n)
  | 97 | 65 | 101 | 69 | 102 | 70 | 103 | 71 =>
    let x ← floatArg f args i
    require (d.allows "-+ #0" true && d.letter ≠ 70)
    return float d x
  | 113 =>
    if !d.isBare then Eval.fault (.format "specifier '%q' cannot have modifiers")
    else match literal? (optArg args i) with
      | some s => return s
      | none => bad f i "value has no literal form"
  | 115 =>
    let s ← textOf call (optArg args i)
    if d.isBare then return s
    else
      if s.contains 0 then bad f i "string contains zeros"
      require (d.allows "-" true)
      if d.precision.isNone && 100 ≤ s.length then return s
      else
        let s := s.take (d.precision.getD s.length)
        let blanks := List.replicate (d.width - s.length) 32
        return if d.hasFlag '-' then s ++ blanks else blanks ++ s
  | _ =>
    require false
    return []

def write (call : Callback) (args : List Value) : Nat → Nat → Bytes → Bytes → Eval Bytes
  | 0, _, out, _ => return out.reverse
  | fuel + 1, i, out, bs => do
    match bs with
    | [] => return out.reverse
    | 37 :: 37 :: rest => write call args fuel i (37 :: out) rest
    | 37 :: rest =>
      match Directive.read? rest with
      | some (d, rest) =>
        let s ← apply call args (i + 1) d
        write call args fuel (i + 1) (s.reverse ++ out) rest
      | none => Eval.fault (.format "invalid conversion '%' to 'format'")
    | b :: rest => write call args fuel i (b :: out) rest

end Pagewright.Script.Library.Format
