import Pagewright.Script.Library.Format

/-! The functions on strings. Positions count from 1, and from the end if they are negative. -/
namespace Pagewright.Script.Library

def longestString : Nat := 0x4000000

def matcher (subject pattern : Bytes) : Pattern.Matcher := ⟨subject.toArray, pattern.toArray⟩

def isAnchored (pattern : Bytes) : Bool := pattern.head? = some 94

def find (f : StringFunction) (args : List Value) : Eval (List Value) := do
  let b : Builtin := .string f
  let s ← bytesArg b args 0
  let p ← bytesArg b args 1
  let start := startOf s.length (← integerOr b args 2 1) - 1
  if s.length < start then return [.nil]
  else if f = StringFunction.find && ((optArg args 3).truthy || Pattern.isPlain p) then
    match Pattern.find? p start (s.drop start) with
    | some i => return [ofInt (i + 1), ofInt (i + p.length)]
    | none => return [.nil]
  else
    let m := matcher s p
    match ← lift (Pattern.search m (isAnchored p) (s.length + 1) start) with
    | none => return [.nil]
    | some (i, e, caps) =>
      if f = StringFunction.find then
        let vs ← if caps.isEmpty then pure [] else lift (Pattern.captures m i e caps)
        return ofInt (i + 1) :: ofInt e :: vs
      else lift (Pattern.captures m i e caps)

/-- The next match that does not end where the last one did. -/
def nextMatch (m : Pattern.Matcher) (last : Option Nat) :
    Nat → Nat → Except Fault (Option (Nat × Nat × Array Pattern.Capture))
  | 0, _ => .ok none
  | fuel + 1, s => do
    if m.subject.size < s then return none
    else match ← Pattern.match? m s 0 with
      | some (e, caps) =>
        if last = some e then nextMatch m last fuel (s + 1) else return some (s, e, caps)
      | none => nextMatch m last fuel (s + 1)

def matchesStep (generator : Nat) (subject pattern : Bytes) (position : Nat) (last : Option Nat) :
    Eval (List Value) := do
  let m := matcher subject pattern
  match ← lift (nextMatch m last (subject.length + 2) position) with
  | none => return []
  | some (s, e, caps) =>
    Eval.onHeap fun h => ((), h.setGenerator generator (.matches subject pattern e (some e)))
    lift (Pattern.captures m s e caps)

/-- The replacement text for a match: `%1` stands for a capture, `%0` for all of it. -/
def expand (m : Pattern.Matcher) (s e : Nat) (caps : Array Pattern.Capture) :
    Bytes → Except Fault Bytes
  | [] => .ok []
  | [37] => .error (.pattern "invalid use of '%' in replacement string")
  | 37 :: d :: rest => do
    let piece ←
      if d = 37 then pure [37]
      else if d = 48 then pure (m.subject.extract s e).toList
      else if isDigit d then
        do pure ((← Pattern.captured m s e caps (d.toNat - 49)).toBytes?.getD [])
      else .error (.pattern "invalid use of '%' in replacement string")
    return piece ++ (← expand m s e caps rest)
  | b :: rest => return b :: (← expand m s e caps rest)

/-- The text of a value that takes the place of a match; without one the match stays. -/
def replacementText (whole : Bytes) (v : Value) : Eval Bytes :=
  if !v.truthy then return whole
  else match v.toBytes? with
    | some t => return t
    | none => Eval.fault (.pattern ("invalid replacement value (a " ++ v.typeName ++ ")"))

def replacement (call : Callback) (substitute : Value) (m : Pattern.Matcher) (s e : Nat)
    (caps : Array Pattern.Capture) : Eval Bytes := do
  let whole := (m.subject.extract s e).toList
  let v : Value ← match substitute with
    | .table _ => do Eval.getField call substitute (← lift (Pattern.captured m s e caps 0))
    | .string t => do pure (.string (← lift (expand m s e caps t)))
    | f => do pure ((← call f (← lift (Pattern.captures m s e caps))).headD .nil)
  replacementText whole v

/-- Replaces up to `most` matches from a position on; what was written is kept last first. -/
def replaceFrom (call : Callback) (substitute : Value) (m : Pattern.Matcher) (anchored : Bool)
    (most : Nat) : Nat → Nat → Option Nat → Nat → Bytes → Eval (Bytes × Nat)
  | 0, _, _, n, out => return (out.reverse, n)
  | fuel + 1, s, last, n, out => do
    let stop (s : Nat) (n : Nat) (out : Bytes) : Bytes × Nat :=
      (out.reverse ++ (m.subject.extract s m.subject.size).toList, n)
    if most ≤ n then return stop s n out
    else
      let found ← lift (Pattern.match? m s (if anchored then 1 else 0))
      match found.filter fun (e, _) => last ≠ some e with
      | some (e, caps) =>
        let t ← replacement call substitute m s e caps
        let out := t.reverse ++ out
        if anchored then return stop e (n + 1) out
        else replaceFrom call substitute m anchored most fuel e (some e) (n + 1) out
      | none =>
        match m.subject[s]? with
        | some b =>
          if anchored then return stop s n out
          else replaceFrom call substitute m anchored most fuel (s + 1) last n (b :: out)
        | none => return (out.reverse, n)

def replaceAll (call : Callback) (args : List Value) (s p : Bytes) (substitute : Value) :
    Eval (List Value) := do
  let most ← integerOr (.string .gsub) args 3 (s.length + 1)
  let fuel := 2 * s.length + 3
  let (t, n) ← replaceFrom call substitute (matcher s p) (isAnchored p) most.toNat fuel 0
    none 0 []
  return [.string t, ofInt n]

def gsub (call : Callback) (args : List Value) : Eval (List Value) := do
  let b : Builtin := .string .gsub
  let s ← bytesArg b args 0
  let p ← bytesArg b args 1
  let substitute : Value ← match arg? args 2 with
    | some (.table r) => pure (.table r)
    | some v =>
      if v.isFunction then pure v
      else match v.toBytes? with
        | some t => pure (.string t)
        | none => bad b 2 ("string/function/table expected, got " ++ given args 2)
    | none => bad b 2 "string/function/table expected, got no value"
  replaceAll call args s p substitute

def rep (args : List Value) : Eval (List Value) := do
  let b : Builtin := .string .rep
  let s ← bytesArg b args 0
  let n ← integerArg b args 1
  let sep ← bytesOr b args 2 []
  if n ≤ 0 then return [.string []]
  else if longestString < (s.length + sep.length) * n.toNat then Eval.fault .tooLong
  else return [.string (s ++ (List.replicate (n.toNat - 1) (sep ++ s)).flatten)]

def string (call : Callback) (f : StringFunction) (args : List Value) : Eval (List Value) := do
  let b : Builtin := .string f
  match f with
  | .byte =>
    let s ← bytesArg b args 0
    let i ← integerOr b args 1 1
    let j ← integerOr b args 2 i
    return (part s (startOf s.length i) (endOf s.length j)).map fun c => ofInt c.toNat
  | .char =>
    let bs ← (List.range args.length).mapM fun (i : Nat) => do
      let c ← integerArg b args i
      if 0 ≤ c && c ≤ 255 then pure (UInt8.ofNat c.toNat) else bad b i "value out of range"
    return [.string bs]
  | .find => find .find args
  | .format =>
    let s ← bytesArg b args 0
    return [.string (← Format.write call args (s.length + 1) 0 [] s)]
  | .gmatch =>
    let s ← bytesArg b args 0
    let p ← bytesArg b args 1
    let start := startOf s.length (← integerOr b args 2 1) - 1
    return [.generator (← Eval.onHeap (·.newGenerator (.matches s p start none)))]
  | .gsub => gsub call args
  | .len => return [ofInt (← bytesArg b args 0).length]
  | .lower => return [.string ((← bytesArg b args 0).map Pattern.toLower)]
  | .match => find .match args
  | .rep => rep args
  | .reverse => return [.string (← bytesArg b args 0).reverse]
  | .sub =>
    let s ← bytesArg b args 0
    let i ← integerArg b args 1
    let j ← integerOr b args 2 (-1)
    return [.string (part s (startOf s.length i) (endOf s.length j))]
  | .upper => return [.string ((← bytesArg b args 0).map Pattern.toUpper)]

end Pagewright.Script.Library
