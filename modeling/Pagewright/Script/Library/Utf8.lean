import Pagewright.Script.Library.Arguments
import Pagewright.Script.Token

/-!
The functions on UTF-8. A byte string is read as the older form of up to six bytes; unless told to be
lax, surrogates and points beyond Unicode are refused.
-/
namespace Pagewright.Script.Library

def greatestPoint : Nat := 0x7fffffff

def isContinuation (b : UInt8) : Bool := b.toNat / 64 = 2

/-- The point that begins a byte string, and how many bytes it takes. -/
def readPoint? (strict : Bool) (bs : Bytes) : Option (Nat × Nat) :=
  match bs with
  | [] => none
  | b :: rest =>
    let n := b.toNat
    let extra : Option (Nat × Nat) :=
      if n < 0x80 then some (0, n)
      else if n < 0xc0 then none
      else if n < 0xe0 then some (1, n % 32)
      else if n < 0xf0 then some (2, n % 16)
      else if n < 0xf8 then some (3, n % 8)
      else if n < 0xfc then some (4, n % 4)
      else if n < 0xfe then some (5, n % 2)
      else none
    match extra with
    | none => none
    | some (k, bits) =>
      let more := rest.take k
      if more.length = k && more.all isContinuation then
        let point := more.foldl (fun p c => p * 64 + c.toNat % 64) bits
        let least := [0, 0x80, 0x800, 0x10000, 0x200000, 0x4000000].getD k 0
        if point < least then none
        else if strict && (0x10ffff < point || (0xd800 ≤ point && point < 0xe000)) then none
        else some (point, k + 1)
      else none

def pointsBetween (strict : Bool) (s : Bytes) (j : Int) : Nat → Nat → Except Nat (List Nat)
  | 0, _ => .ok []
  | fuel + 1, i =>
    if j < i then .ok []
    else match readPoint? strict (s.drop i) with
      | none => .error i
      | some (p, n) => (pointsBetween strict s j fuel (i + n)).map (p :: ·)

def placeOf (n : Nat) (i : Int) : Int :=
  if 0 ≤ i then i else if n < -i then 0 else n + i + 1

def codepoint (args : List Value) : Eval (List Value) := do
  let b : Builtin := .utf8 .codepoint
  let s ← bytesArg b args 0
  let i := placeOf s.length (← integerOr b args 1 1)
  let j := placeOf s.length (← integerOr b args 2 i)
  if i < 1 then bad b 1 "out of bounds"
  else if s.length < j then bad b 2 "out of bounds"
  else match pointsBetween (!(optArg args 3).truthy) s (j - 1) (s.length + 1) (i - 1).toNat with
    | .ok ps => return ps.map fun (p : Nat) => ofInt p
    | .error _ => Eval.fault (.format "invalid UTF-8 code")

def utf8Length (args : List Value) : Eval (List Value) := do
  let b : Builtin := .utf8 .len
  let s ← bytesArg b args 0
  let i := placeOf s.length (← integerOr b args 1 1)
  let j := placeOf s.length (← integerOr b args 2 (-1))
  if i < 1 || s.length + 1 < i then bad b 1 "initial position out of bounds"
  else if s.length < j then bad b 2 "final position out of bounds"
  else match pointsBetween (!(optArg args 3).truthy) s (j - 1) (s.length + 1) (i - 1).toNat with
    | .ok ps => return [ofInt ps.length]
    | .error i => return [.nil, ofInt (i + 1)]

/-- The first position from `i` on (in steps of 1 or -1) where a character begins, after `n` others. -/
def seekPoint (s : Array UInt8) (step : Int) : Nat → Nat → Int → Option Int
  | 0, _, _ => none
  | fuel + 1, n, i =>
    let begins (i : Int) : Bool := i = 0 || !isContinuation (s.getD i.toNat 0)
    if i < 0 || s.size < i then none
    else if begins i then
      match n with
      | 0 => some i
      | n + 1 => seekPoint s step fuel n (i + step)
    else seekPoint s step fuel n (i + step)

def offset (args : List Value) : Eval (List Value) := do
  let b : Builtin := .utf8 .offset
  let s ← bytesArg b args 0
  let n ← integerArg b args 1
  let i := placeOf s.length (← integerOr b args 2 (if 0 < n then 1 else s.length + 1)) - 1
  let a := s.toArray
  let fuel := s.length + 2
  if i < 0 || s.length < i then bad b 2 "position out of bounds"
  else if n ≠ 0 && isContinuation (a.getD i.toNat 0) then
    Eval.fault (.format "initial position is a continuation byte")
  else
    let found := if n = 0 then seekPoint a (-1) fuel 0 i
      else if 0 < n then seekPoint a 1 fuel (n.toNat - 1) i
      else seekPoint a (-1) fuel ((-n).toNat - 1) (i - 1)
    return [(found.map fun i => ofInt (i + 1)).getD .nil]

def codesStep (args : List Value) : Eval (List Value) := do
  let b : Builtin := .utf8 .codesStep
  let s ← bytesArg b args 0
  let i ← integerArg b args 1
  let rest := s.drop i.toNat
  let skipped := rest.takeWhile isContinuation
  let rest := rest.drop skipped.length
  match rest with
  | [] => return [.nil]
  | _ =>
    match readPoint? true rest with
    | some (p, n) =>
      if ((rest.drop n).head?.map isContinuation).getD false then
        Eval.fault (.format "invalid UTF-8 code")
      else return [ofInt (i.toNat + skipped.length + 1), ofInt p]
    | none => Eval.fault (.format "invalid UTF-8 code")

def utf8 (f : Utf8Function) (args : List Value) : Eval (List Value) := do
  let b : Builtin := .utf8 f
  match f with
  | .char =>
    let pieces ← (List.range args.length).mapM fun (i : Nat) => do
      let c ← integerArg b args i
      if 0 ≤ c && c ≤ greatestPoint then pure (Token.encodePoint c.toNat)
      else bad b i "value out of range"
    return [.string pieces.flatten]
  | .codepoint => codepoint args
  | .codes =>
    let s ← bytesArg b args 0
    if (s.head?.map isContinuation).getD false then bad b 0 "invalid UTF-8 code"
    else return [.builtin (.utf8 .codesStep), .string s, ofInt 0]
  | .codesStep => codesStep args
  | .len => utf8Length args
  | .offset => offset args

end Pagewright.Script.Library
