import Pagewright.Script.Fault
import Pagewright.Script.Numeral

/-!
Patterns over byte strings. A pattern is matched at one position of a subject, item after item; an
item that repeats tries its longest run first, or its shortest. Captures are kept by the position of
their start.
-/
namespace Pagewright.Script.Pattern

inductive Capture where
  /-- Still open. -/
  | opened (start : Nat)
  | closed (start length : Nat)
  /-- A position alone. -/
  | position (place : Nat)
deriving DecidableEq, Repr, Inhabited

structure Matcher where
  subject : Array UInt8
  pattern : Array UInt8

def mostCaptures : Nat := 32

def deepest : Nat := 200

abbrev Found := Option (Nat × Array Capture)

def isUpper (b : UInt8) : Bool := 65 ≤ b && b ≤ 90

def isLower (b : UInt8) : Bool := 97 ≤ b && b ≤ 122

def isControl (b : UInt8) : Bool := b < 32 || b = 127

def isGraphic (b : UInt8) : Bool := 33 ≤ b && b ≤ 126

def toLower (b : UInt8) : UInt8 := if isUpper b then b + 32 else b

def toUpper (b : UInt8) : UInt8 := if isLower b then b - 32 else b

/-- Whether a byte is in the class of a letter; other bytes stand for themselves. -/
def inClass (b cls : UInt8) : Bool :=
  let isAlnum := isLetter b || isDigit b
  let basic : Option Bool := match (toLower cls).toNat with
    | 97 => some (isLetter b)
    | 99 => some (isControl b)
    | 100 => some (isDigit b)
    | 103 => some (isGraphic b)
    | 108 => some (isLower b)
    | 112 => some (isGraphic b && !isAlnum)
    | 115 => some (isSpace b)
    | 117 => some (isUpper b)
    | 119 => some isAlnum
    | 120 => some (isHexDigit b)
    | _ => none
  match basic with
  | some r => if isUpper cls then !r else r
  | none => cls = b

def setEnd (pattern : Array UInt8) : Nat → Nat → Bool → Except Fault Nat
  | 0, _, _ => .error (.pattern "malformed pattern (missing ']')")
  | fuel + 1, p, isFirst =>
    match pattern[p]? with
    | none => .error (.pattern "malformed pattern (missing ']')")
    | some 93 => if isFirst then setEnd pattern fuel (p + 1) false else .ok (p + 1)
    | some 37 => setEnd pattern fuel (p + 2) false
    | some _ => setEnd pattern fuel (p + 1) false

def itemEnd (pattern : Array UInt8) (p : Nat) : Except Fault Nat :=
  match pattern[p]? with
  | some 37 =>
    if p + 1 < pattern.size then .ok (p + 2)
    else .error (.pattern "malformed pattern (ends with '%')")
  | some 91 =>
    setEnd pattern (pattern.size + 1) (if pattern[p + 1]? = some 94 then p + 2 else p + 1) true
  | _ => .ok (p + 1)

def amongMembers (pattern : Array UInt8) (b : UInt8) (stop : Nat) : Nat → Nat → Bool
  | 0, _ => false
  | fuel + 1, p =>
    if stop ≤ p then false
    else
      let c := pattern.getD p 0
      if c = 37 then
        inClass b (pattern.getD (p + 1) 0) || amongMembers pattern b stop fuel (p + 2)
      else if pattern.getD (p + 1) 0 = 45 && p + 2 < stop then
        (c ≤ b && b ≤ pattern.getD (p + 2) 0) || amongMembers pattern b stop fuel (p + 3)
      else c = b || amongMembers pattern b stop fuel (p + 1)

def inSet (pattern : Array UInt8) (b : UInt8) (p ep : Nat) : Bool :=
  if pattern[p + 1]? = some 94 then !amongMembers pattern b (ep - 1) pattern.size (p + 2)
  else amongMembers pattern b (ep - 1) pattern.size (p + 1)

def single (m : Matcher) (s p ep : Nat) : Bool :=
  match m.subject[s]? with
  | none => false
  | some b =>
    match m.pattern.getD p 0 with
    | 46 => true
    | 37 => inClass b (m.pattern.getD (p + 1) 0)
    | 91 => inSet m.pattern b p ep
    | c => c = b

def run (m : Matcher) (p ep : Nat) : Nat → Nat → Nat
  | 0, _ => 0
  | fuel + 1, s => if single m s p ep then run m p ep fuel (s + 1) + 1 else 0

def balanced (m : Matcher) (opening closing : UInt8) : Nat → Nat → Nat → Option Nat
  | 0, _, _ => none
  | fuel + 1, s, nesting =>
    match m.subject[s]? with
    | none => none
    | some b =>
      if b = closing then
        (if nesting = 1 then some (s + 1)
         else balanced m opening closing fuel (s + 1) (nesting - 1))
      else balanced m opening closing fuel (s + 1) (if b = opening then nesting + 1 else nesting)

def innermost (caps : Array Capture) : Option (Nat × Nat) :=
  (List.range caps.size).reverse.findSome? fun (i : Nat) =>
    match caps[i]? with
    | some (.opened s) => some (i, s)
    | _ => none

def earlier (caps : Array Capture) (digit : UInt8) : Except Fault (Nat × Nat) :=
  match caps[digit.toNat - 49]? with
  | some (.closed s l) => if digit = 48 then invalid else .ok (s, l)
  | _ => invalid
where
  invalid : Except Fault (Nat × Nat) :=
    .error (.pattern ("invalid capture index %" ++ Decimal.intText ((digit.toNat : Int) - 48)))

/-- Matches the pattern from `p` on at `s`: where the match ends, and the captures. Every call is for
a later part of the pattern. -/
def matchAt (m : Matcher) : Nat → Nat → Nat → Nat → Array Capture → Except Fault Found
  | 0, _, _, _, _ => .ok none
  | fuel + 1, depth, s, p, caps => do
    let deeper (s p : Nat) (caps : Array Capture) : Except Fault Found :=
      if depth = 0 then .error (.pattern "pattern too complex")
      else matchAt m fuel (depth - 1) s p caps
    let capture (c : Capture) (p : Nat) : Except Fault Found :=
      if mostCaptures ≤ caps.size then .error (.pattern "too many captures")
      else deeper s p (caps.push c)
    match m.pattern[p]? with
    | none => return some (s, caps)
    | some 40 =>
      if m.pattern[p + 1]? = some 41 then capture (.position s) (p + 2)
      else capture (.opened s) (p + 1)
    | some 41 =>
      match innermost caps with
      | some (i, start) => deeper s (p + 1) (caps.setIfInBounds i (.closed start (s - start)))
      | none => .error (.pattern "invalid pattern capture")
    | some c =>
      if c = 36 && p + 1 = m.pattern.size then
        return if s = m.subject.size then some (s, caps) else none
      let next := m.pattern[p + 1]?
      if c = 37 && next = some 98 then
        match m.pattern[p + 2]?, m.pattern[p + 3]? with
        | some opening, some closing =>
          if m.subject[s]? = some opening then
            match balanced m opening closing m.subject.size (s + 1) 1 with
            | some e => matchAt m fuel depth e (p + 4) caps
            | none => return none
          else return none
        | _, _ => .error (.pattern "malformed pattern (missing arguments to '%b')")
      else if c = 37 && next = some 102 then
        if m.pattern[p + 2]? ≠ some 91 then
          .error (.pattern "missing '[' after '%f' in pattern")
        else
          let ep ← itemEnd m.pattern (p + 2)
          let before := if s = 0 then 0 else m.subject.getD (s - 1) 0
          let here := m.subject.getD s 0
          if !inSet m.pattern before (p + 2) ep && inSet m.pattern here (p + 2) ep then
            matchAt m fuel depth s ep caps
          else return none
      else if c = 37 && next.any isDigit then
        let (start, len) ← earlier caps (next.getD 0)
        if (m.subject.extract start (start + len)) = m.subject.extract s (s + len)
            && s + len ≤ m.subject.size then
          matchAt m fuel depth (s + len) (p + 2) caps
        else return none
      else
        let ep ← itemEnd m.pattern p
        let isOne := single m s p ep
        let longest (least : Nat) : Except Fault Found :=
          let n := run m p ep m.subject.size (s + least)
          (List.range (n + 1)).reverse.findSomeM? fun i => deeper (s + least + i) (ep + 1) caps
        match m.pattern[ep]? with
        | some 63 =>
          if isOne then
            match ← deeper (s + 1) (ep + 1) caps with
            | some r => return some r
            | none => matchAt m fuel depth s (ep + 1) caps
          else matchAt m fuel depth s (ep + 1) caps
        | some 43 => if isOne then longest 1 else return none
        | some 42 => longest 0
        | some 45 =>
          let n := run m p ep m.subject.size s
          (List.range (n + 1)).findSomeM? fun i => deeper (s + i) (ep + 1) caps
        | _ => if isOne then matchAt m fuel depth (s + 1) ep caps else return none

def match? (m : Matcher) (s : Nat) (p : Nat) : Except Fault Found :=
  matchAt m (m.pattern.size + 2) deepest s p #[]

/-- The first match at a position or, unless the pattern is anchored, a later one: start, end and
captures. -/
def search (m : Matcher) (anchored : Bool) : Nat → Nat →
    Except Fault (Option (Nat × Nat × Array Capture))
  | 0, _ => .ok none
  | fuel + 1, s => do
    match ← match? m s (if anchored then 1 else 0) with
    | some (e, caps) => return some (s, e, caps)
    | none => if anchored || m.subject.size ≤ s then return none else search m anchored fuel (s + 1)

/-- The value of a capture; without captures the whole match is the first one. -/
def captured (m : Matcher) (s e : Nat) (caps : Array Capture) (i : Nat) : Except Fault Value :=
  match caps[i]? with
  | some (.closed start len) =>
    .ok (.string (m.subject.extract start (start + len)).toList)
  | some (.position p) => .ok (.integer (Int64.ofNat (p + 1)))
  | some (.opened _) => .error (.pattern "unfinished capture")
  | none =>
    if i = 0 then .ok (.string (m.subject.extract s e).toList)
    else .error (.pattern ("invalid capture index %" ++ Decimal.intText (i + 1)))

def captures (m : Matcher) (s e : Nat) (caps : Array Capture) : Except Fault (List Value) :=
  (List.range (max 1 caps.size)).mapM (captured m s e caps)

def isPlain (pattern : Bytes) : Bool :=
  pattern.all fun b => !([94, 36, 42, 43, 63, 46, 40, 91, 37, 45].contains b)

def find? (needle : Bytes) : Nat → Bytes → Option Nat
  | i, [] => if needle.isEmpty then some i else none
  | i, b :: rest =>
    if needle.isPrefixOf (b :: rest) then some i else find? needle (i + 1) rest

end Pagewright.Script.Pattern
