import Pagewright.Json.Value

/-!
Reading JSON. The grammar is the strict one: a single value with blanks around it, no other escapes
than those of the standard, surrogates only in pairs, and no number beyond the doubles. Of an object's
fields with one key the last counts. Values nest at most `deepest` levels.
-/
namespace Pagewright.Json

def deepest : Nat := 127

def isBlank (c : Char) : Bool := c = ' ' || c = '\n' || c = '\t' || c = '\r'

def skipBlanks (cs : List Char) : List Char := cs.dropWhile isBlank

def isDigit (c : Char) : Bool := '0' ≤ c && c ≤ '9'

def digit (c : Char) : Nat := c.toNat - 48

/-! Numbers. The significand is held in 64 bits. -/

namespace Numeral

structure Parts where
  significand : Nat
  exponent : Int
deriving DecidableEq, Repr

def extend? (significand : Nat) (c : Char) : Option Nat :=
  let n := significand * 10 + digit c
  if n < 0x10000000000000000 then some n else none

/-- Digits before the point; those that do not fit count for the exponent only. -/
def whole (p : Parts) : List Char → Parts
  | [] => p
  | c :: cs =>
    match extend? p.significand c with
    | some n => whole ⟨n, p.exponent⟩ cs
    | none => ⟨p.significand, p.exponent + (c :: cs).length⟩

def fraction (p : Parts) : List Char → Parts
  | [] => p
  | c :: cs =>
    match extend? p.significand c with
    | some n => fraction ⟨n, p.exponent - 1⟩ cs
    | none => p

def greatestPower : Nat := 308

def powerOfTen (n : Nat) : Double := .ofDecimal false 1 n

/-- A double times a power of ten, in few roundings; none beyond the doubles. -/
def scale? : Nat → Double → Int → Option Double
  | 0, _, _ => some (.ofInt 0)
  | steps + 1, d, e =>
    if e.natAbs ≤ greatestPower then
      if 0 ≤ e then
        let r := d.mul (powerOfTen e.natAbs)
        if r.isInfinite then none else some r
      else some (d.div (powerOfTen e.natAbs))
    else if d.magnitude = 0 then some d
    else if 0 ≤ e then none
    else scale? steps (d.div (powerOfTen greatestPower)) (e + greatestPower)

/-- The float of the parts of a number. Two steps take any significand below the least double. -/
def float? (negative : Bool) (p : Parts) : Option Double :=
  (scale? 4 (.ofInt p.significand) p.exponent).map fun d => if negative then d.neg else d

def ofWhole? (negative : Bool) (p : Parts) : Option JsonNumber :=
  if p.exponent = 0 then
    let n := p.significand
    if !negative then some (.integer n)
    else if 0 < n ∧ n ≤ 0x8000000000000000 then some (.integer (-(n : Int)))
    else some (.float (Double.ofInt n).neg)
  else (float? negative p).map .float

def exponent? (cs : List Char) : Option (Int × List Char) :=
  let (negative, cs) : Bool × List Char := match cs with
    | '-' :: cs => (true, cs)
    | '+' :: cs => (false, cs)
    | cs => (false, cs)
  let ds := cs.takeWhile isDigit
  if ds.isEmpty then none
  else
    let e : Int := ds.foldl (fun n c => n * 10 + digit c) 0
    some (if negative then -e else e, cs.drop ds.length)

def afterWhole? (negative : Bool) (p : Parts) (cs : List Char) : Option (JsonNumber × List Char) :=
  let withExponent (p : Parts) (cs : List Char) : Option (JsonNumber × List Char) := do
    let (e, rest) ← exponent? cs
    let d ← float? negative ⟨p.significand, p.exponent + e⟩
    return (.float d, rest)
  match cs with
  | '.' :: cs =>
    let ds := cs.takeWhile isDigit
    if ds.isEmpty then none
    else
      let p := fraction p ds
      match cs.drop ds.length with
      | 'e' :: rest | 'E' :: rest => withExponent p rest
      | rest => (float? negative p).map fun d => (.float d, rest)
  | 'e' :: cs | 'E' :: cs => withExponent p cs
  | cs => (ofWhole? negative p).map fun n => (n, cs)

def read? (negative : Bool) (cs : List Char) : Option (JsonNumber × List Char) :=
  let ds := cs.takeWhile isDigit
  match ds with
  | [] => none
  | '0' :: _ :: _ => none
  | ds => afterWhole? negative (whole ⟨0, 0⟩ ds) (cs.drop ds.length)

end Numeral

/-! Strings. -/

def hexDigit? (c : Char) : Option Nat :=
  if isDigit c then some (digit c)
  else if 'a' ≤ c && c ≤ 'f' then some (c.toNat - 87)
  else if 'A' ≤ c && c ≤ 'F' then some (c.toNat - 55)
  else none

def unit? : List Char → Option (Nat × List Char)
  | a :: b :: c :: d :: rest => do
    let a ← hexDigit? a
    let b ← hexDigit? b
    let c ← hexDigit? c
    let d ← hexDigit? d
    return (((a * 16 + b) * 16 + c) * 16 + d, rest)
  | _ => none

def unicode? (cs : List Char) : Option (Char × List Char) := do
  let (u, rest) ← unit? cs
  if u < 0xd800 || 0xe000 ≤ u then return (Char.ofNat u, rest)
  else if 0xdc00 ≤ u then none
  else match rest with
    | '\\' :: 'u' :: rest =>
      let (v, rest) ← unit? rest
      if 0xdc00 ≤ v && v < 0xe000 then
        return (Char.ofNat (0x10000 + (u - 0xd800) * 0x400 + (v - 0xdc00)), rest)
      else none
    | _ => none

def escape? : List Char → Option (Char × List Char)
  | 'u' :: cs => unicode? cs
  | 'n' :: cs => some ('\n', cs)
  | 't' :: cs => some ('\t', cs)
  | 'r' :: cs => some ('\r', cs)
  | 'b' :: cs => some ('\x08', cs)
  | 'f' :: cs => some ('\x0c', cs)
  | c :: cs => if c = '"' || c = '\\' || c = '/' then some (c, cs) else none
  | [] => none

/-- The rest of a string, its characters read so far last first. -/
def stringRest? : Nat → List Char → List Char → Option (String × List Char)
  | 0, _, _ => none
  | fuel + 1, out, cs =>
    match cs with
    | [] => none
    | '"' :: rest => some (String.ofList out.reverse, rest)
    | '\\' :: rest =>
      match escape? rest with
      | some (c, rest) => stringRest? fuel (c :: out) rest
      | none => none
    | c :: rest => if c.toNat < 0x20 then none else stringRest? fuel (c :: out) rest

def string? (cs : List Char) : Option (String × List Char) :=
  stringRest? (cs.length + 1) [] cs

/-! Values. Every call takes a character or is followed by one that does. -/

mutual

/-- A value at the front of a text, and the rest; `depth` levels may still open. -/
def value? : Nat → Nat → List Char → Option (Json × List Char)
  | 0, _, _ => none
  | fuel + 1, depth, cs =>
    match cs with
    | 'n' :: 'u' :: 'l' :: 'l' :: rest => some (.null, rest)
    | 't' :: 'r' :: 'u' :: 'e' :: rest => some (.boolean true, rest)
    | 'f' :: 'a' :: 'l' :: 's' :: 'e' :: rest => some (.boolean false, rest)
    | '"' :: rest => (string? rest).map fun (s, rest) => (.string s, rest)
    | '[' :: rest =>
      match depth with
      | 0 => none
      | depth + 1 =>
        match skipBlanks rest with
        | ']' :: rest => some (.array [], rest)
        | rest => (items? fuel depth [] rest).map fun (vs, rest) => (.array vs, rest)
    | '\x7b' :: rest =>
      match depth with
      | 0 => none
      | depth + 1 =>
        match skipBlanks rest with
        | '\x7d' :: rest => some (.object [], rest)
        | rest => (fields? fuel depth [] rest).map fun (fs, rest) =>
            (.object (JsonFields.ofList fs), rest)
    | '-' :: rest => (Numeral.read? true rest).map fun (n, rest) => (.number n, rest)
    | cs => (Numeral.read? false cs).map fun (n, rest) => (.number n, rest)

def items? : Nat → Nat → List Json → List Char → Option (List Json × List Char)
  | 0, _, _, _ => none
  | fuel + 1, depth, out, cs =>
    match value? fuel depth cs with
    | none => none
    | some (v, rest) =>
      match skipBlanks rest with
      | ',' :: rest => items? fuel depth (v :: out) (skipBlanks rest)
      | ']' :: rest => some ((v :: out).reverse, rest)
      | _ => none

def fields? : Nat → Nat → List (String × Json) → List Char →
    Option (List (String × Json) × List Char)
  | 0, _, _, _ => none
  | fuel + 1, depth, out, cs =>
    match cs with
    | '"' :: rest =>
      match string? rest with
      | none => none
      | some (key, rest) =>
        match skipBlanks rest with
        | ':' :: rest =>
          match value? fuel depth (skipBlanks rest) with
          | none => none
          | some (v, rest) =>
            match skipBlanks rest with
            | ',' :: rest => fields? fuel depth ((key, v) :: out) (skipBlanks rest)
            | '\x7d' :: rest => some (((key, v) :: out).reverse, rest)
            | _ => none
        | _ => none
    | _ => none

end

def read? (text : String) : Option Json :=
  let cs := skipBlanks text.toList
  match value? (2 * cs.length + 2) deepest cs with
  | some (v, rest) => if (skipBlanks rest).isEmpty then some v else none
  | none => none

end Pagewright.Json
