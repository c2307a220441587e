/-!
Bytes and text. Scripts work on byte strings; markup is text. `Bytes.ofText` writes a text in UTF-8,
`Bytes.toText` reads one back, putting the replacement character for each maximal part that no
encoding continues.
-/
namespace Pagewright

abbrev Bytes := List UInt8

namespace Utf8

def replacement : Char := '\ufffd'

/-- The bytes that an unfinished sequence still owes, and the range the next of them must be in. -/
structure Pending where
  /-- Continuation bytes still to come. -/
  owed : Nat
  /-- The bits read so far. -/
  bits : Nat
  /-- Least next byte. -/
  low : Nat
  /-- Greatest next byte. -/
  high : Nat
deriving DecidableEq, Repr

inductive Lead where
  /-- A whole character. -/
  | ascii (c : Char)
  /-- The first byte of a longer sequence. -/
  | opens (p : Pending)
  /-- Nothing: a stray continuation or a byte that UTF-8 never uses. -/
  | stray
deriving DecidableEq, Repr

/-- Overlong forms, surrogates and values above U+10FFFF are refused at the second byte, by its
range. -/
def lead (b : UInt8) : Lead :=
  let n := b.toNat
  if n < 0x80 then .ascii (Char.ofNat n)
  else if n < 0xc2 then .stray
  else if n < 0xe0 then .opens ⟨1, n - 0xc0, 0x80, 0xbf⟩
  else if n = 0xe0 then .opens ⟨2, 0, 0xa0, 0xbf⟩
  else if n = 0xed then .opens ⟨2, 0xd, 0x80, 0x9f⟩
  else if n < 0xf0 then .opens ⟨2, n - 0xe0, 0x80, 0xbf⟩
  else if n = 0xf0 then .opens ⟨3, 0, 0x90, 0xbf⟩
  else if n < 0xf4 then .opens ⟨3, n - 0xf0, 0x80, 0xbf⟩
  else if n = 0xf4 then .opens ⟨3, 4, 0x80, 0x8f⟩
  else .stray

/-- The reader between two bytes: the open sequence, and the characters read so far, last first. -/
structure Reader where
  pending : Option Pending := none
  read : List Char := []
  /-- Whether a part was replaced. -/
  broken : Bool := false
deriving DecidableEq, Repr

namespace Reader

def start (r : Reader) (b : UInt8) : Reader :=
  match lead b with
  | .ascii c => ⟨none, c :: r.read, r.broken⟩
  | .opens p => ⟨some p, r.read, r.broken⟩
  | .stray => ⟨none, replacement :: r.read, true⟩

/-- One byte. A sequence that the byte does not continue is replaced, and the byte read afresh. -/
def next (r : Reader) (b : UInt8) : Reader :=
  match r.pending with
  | none => r.start b
  | some p =>
    let n := b.toNat
    if p.low ≤ n ∧ n ≤ p.high then
      let bits := p.bits * 64 + (n - 0x80)
      if p.owed = 1 then ⟨none, Char.ofNat bits :: r.read, r.broken⟩
      else ⟨some ⟨p.owed - 1, bits, 0x80, 0xbf⟩, r.read, r.broken⟩
    else start ⟨none, replacement :: r.read, true⟩ b

def finish (r : Reader) : Reader :=
  match r.pending with
  | none => r
  | some _ => ⟨none, replacement :: r.read, true⟩

end Reader

def scan (bs : Bytes) : Reader :=
  (bs.foldl Reader.next {}).finish

def decode (bs : Bytes) : List Char :=
  (scan bs).read.reverse

def encode (cs : List Char) : Bytes :=
  cs.flatMap String.utf8EncodeChar

def valid (bs : Bytes) : Bool :=
  !(scan bs).broken

end Utf8

namespace Bytes

def ofText (s : String) : Bytes :=
  Utf8.encode s.toList

def toText (bs : Bytes) : String :=
  String.ofList (Utf8.decode bs)

def toText? (bs : Bytes) : Option String :=
  let r := Utf8.scan bs
  if r.broken then none else some (String.ofList r.read.reverse)

def hex (bs : Bytes) : String :=
  String.ofList (bs.flatMap fun b =>
    [Nat.digitChar (b.toNat / 16), Nat.digitChar (b.toNat % 16)])

end Bytes

end Pagewright
