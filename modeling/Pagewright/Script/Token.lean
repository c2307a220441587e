import Pagewright.Script.Numeral
import Pagewright.Script.SourceError

/-!
The tokens of a script. `Token.scan` splits a source into tokens, each with the line on which it
ends; blanks and comments fall away.
-/
namespace Pagewright.Script

inductive Keyword where
  | and | break | do | else | elseif | «end» | false | for | function | goto | if | in | local
  | nil | not | or | repeat | return | then | true | until | while
deriving DecidableEq, Repr

namespace Keyword

def names : List (String × Keyword) :=
  [("and", .and), ("break", .break), ("do", .do), ("else", .else), ("elseif", .elseif),
   ("end", .end), ("false", .false), ("for", .for), ("function", .function), ("goto", .goto),
   ("if", .if), ("in", .in), ("local", .local), ("nil", .nil), ("not", .not), ("or", .or),
   ("repeat", .repeat), ("return", .return), ("then", .then), ("true", .true),
   ("until", .until), ("while", .while)]

def ofName? (name : String) : Option Keyword := names.lookup name

end Keyword

inductive Symbol where
  | plus | minus | star | slash | percent | caret | hash | ampersand | tilde | bar
  | shiftLeft | shiftRight | doubleSlash | equal | unequal | lessEqual | greaterEqual | less
  | greater | assign | openParen | closeParen | openBrace | closeBrace | openBracket
  | closeBracket | doubleColon | semicolon | colon | comma | dot | concat | ellipsis
deriving DecidableEq, Repr

inductive Token where
  | name (s : Bytes)
  | keyword (k : Keyword)
  | symbol (s : Symbol)
  | string (s : Bytes)
  | number (l : Literal)
  /-- A byte that begins no token. -/
  | stray (b : UInt8)
deriving DecidableEq, Repr

structure Lexeme where
  token : Token
  line : Nat
deriving DecidableEq, Repr

namespace Token

def isNameStart (b : UInt8) : Bool := isLetter b || b = 95

def isNamePart (b : UInt8) : Bool := isNameStart b || isDigit b

/-- What follows the first byte of an end of line: a different one belongs to it. -/
def endLine (first : UInt8) : Bytes → Bytes
  | b :: rest => if (b = 10 || b = 13) && b ≠ first then rest else b :: rest
  | [] => []

def longOpening : Nat → Bytes → Option (Nat × Bytes)
  | n, 61 :: rest => longOpening (n + 1) rest
  | n, 91 :: rest => some (n, rest)
  | _, _ => none

def longClosing : Nat → Bytes → Option Bytes
  | 0, 93 :: rest => some rest
  | n + 1, 61 :: rest => longClosing n rest
  | _, _ => none

/-- The text up to the closing bracket of a level, what follows, and the line there. Every end of
line reads as a line feed. -/
def longText (level : Nat) : Nat → Bytes → Bytes → Option (Bytes × Bytes × Nat)
  | _, _, [] => none
  | line, out, 10 :: 13 :: rest => longText level (line + 1) (10 :: out) rest
  | line, out, 13 :: 10 :: rest => longText level (line + 1) (10 :: out) rest
  | line, out, b :: rest =>
    if b = 93 then
      match longClosing level rest with
      | some rest' => some (out.reverse, rest', line)
      | none => longText level line (b :: out) rest
    else if b = 10 || b = 13 then longText level (line + 1) (10 :: out) rest
    else longText level line (b :: out) rest

/-- A long text; an end of line right after the opening bracket is no part of it. -/
def longString (level line : Nat) (bs : Bytes) : Option (Bytes × Bytes × Nat) :=
  match bs with
  | b :: rest =>
    if b = 10 || b = 13 then longText level (line + 1) [] (endLine b rest)
    else longText level line [] bs
  | [] => none

def skipBlanks : Nat → Bytes → Nat × Bytes
  | line, 10 :: 13 :: rest => skipBlanks (line + 1) rest
  | line, 13 :: 10 :: rest => skipBlanks (line + 1) rest
  | line, b :: rest =>
    if b = 10 || b = 13 then skipBlanks (line + 1) rest
    else if isSpace b then skipBlanks line rest
    else (line, b :: rest)
  | line, [] => (line, [])

/-- The bytes of a code point up to 31 bits, as UTF-8 would go on. -/
def encodePoint (n : Nat) : Bytes :=
  let tail (k : Nat) : UInt8 := UInt8.ofNat (0x80 + n / Nat.pow 64 k % 64)
  if n < 0x80 then [UInt8.ofNat n]
  else if n < 0x800 then [UInt8.ofNat (0xc0 + n / 64), tail 0]
  else if n < 0x10000 then [UInt8.ofNat (0xe0 + n / Nat.pow 64 2), tail 1, tail 0]
  else if n < 0x200000 then [UInt8.ofNat (0xf0 + n / Nat.pow 64 3), tail 2, tail 1, tail 0]
  else if n < 0x4000000 then [UInt8.ofNat (0xf8 + n / Nat.pow 64 4), tail 3, tail 2, tail 1, tail 0]
  else [UInt8.ofNat (0xfc + n / Nat.pow 64 5), tail 4, tail 3, tail 2, tail 1, tail 0]

def escapeLetter : UInt8 → Option UInt8
  | 97 => some 7
  | 98 => some 8
  | 102 => some 12
  | 110 => some 10
  | 114 => some 13
  | 116 => some 9
  | 118 => some 11
  | 92 => some 92
  | 34 => some 34
  | 39 => some 39
  | _ => none

def escape (line : Nat) (bs : Bytes) : Option (Bytes × Bytes × Nat) :=
  match bs with
  | [] => none
  | b :: rest =>
    match escapeLetter b with
    | some c => some ([c], rest, line)
    | none =>
      if b = 10 || b = 13 then some ([10], endLine b rest, line + 1)
      else if b = 120 then
        match rest with
        | x :: y :: rest' =>
          if isHexDigit x && isHexDigit y then
            some ([UInt8.ofNat (numberOf 16 [x, y])], rest', line)
          else none
        | _ => none
      else if b = 122 then
        let (line', rest') := skipBlanks line rest
        some ([], rest', line')
      else if b = 117 then
        match rest with
        | 123 :: rest' =>
          let ds := rest'.takeWhile isHexDigit
          match rest'.dropWhile isHexDigit with
          | 125 :: rest'' =>
            if ds.isEmpty || 0x80000000 ≤ numberOf 16 ds then none
            else some (encodePoint (numberOf 16 ds), rest'', line)
          | _ => none
        | _ => none
      else if isDigit b then
        let ds := bs.takeWhile isDigit |>.take 3
        let n := numberOf 10 ds
        if n < 256 then some ([UInt8.ofNat n], bs.drop ds.length, line) else none
      else none

def shortString (quote : UInt8) :
    Nat → Nat → Bytes → Bytes → Except SourceError (Bytes × Bytes × Nat)
  | 0, line, _, _ => .error ⟨line, .unfinishedString⟩
  | fuel + 1, line, out, bs =>
    match bs with
    | [] => .error ⟨line, .unfinishedString⟩
    | b :: rest =>
      if b = quote then .ok (out.reverse, rest, line)
      else if b = 10 || b = 13 then .error ⟨line, .unfinishedString⟩
      else if b = 92 then
        match escape line rest with
        | some (bytes, rest', line') =>
          shortString quote fuel line' (bytes.reverse ++ out) rest'
        | none => .error ⟨line, .invalidEscape⟩
      else shortString quote fuel line (b :: out) rest

/-- The bytes a numeral reaches over: digits, letters of hexadecimal digits, points, and a sign right
after an exponent mark. -/
def numeralExtent (marks : List UInt8) : Bytes → Bytes → Bytes × Bytes
  | out, m :: s :: rest =>
    if marks.contains m && (s = 43 || s = 45) then numeralExtent marks (s :: m :: out) rest
    else if marks.contains m || isHexDigit m || m = 46 then
      numeralExtent marks (m :: out) (s :: rest)
    else (out.reverse, m :: s :: rest)
  | out, [m] =>
    if marks.contains m || isHexDigit m || m = 46 then ((m :: out).reverse, [])
    else (out.reverse, [m])
  | out, [] => (out.reverse, [])

def numeral (line : Nat) (bs : Bytes) : Except SourceError (Lexeme × Bytes) :=
  let (text, rest) := match bs with
    | 48 :: x :: rest =>
      if x = 120 || x = 88 then
        let (t, r) := numeralExtent [112, 80] [] rest
        (48 :: x :: t, r)
      else numeralExtent [101, 69] [] bs
    | _ => numeralExtent [101, 69] [] bs
  let glued := match rest with
    | b :: _ => isNameStart b
    | [] => false
  match (if glued then none else Numeral.literal? text) with
  | some l => .ok (⟨.number l, line⟩, rest)
  | none => .error ⟨line, .malformedNumber⟩

def symbol? : Bytes → Option (Symbol × Bytes)
  | 46 :: 46 :: 46 :: r => some (.ellipsis, r)
  | 46 :: 46 :: r => some (.concat, r)
  | 46 :: r => some (.dot, r)
  | 61 :: 61 :: r => some (.equal, r)
  | 61 :: r => some (.assign, r)
  | 60 :: 61 :: r => some (.lessEqual, r)
  | 60 :: 60 :: r => some (.shiftLeft, r)
  | 60 :: r => some (.less, r)
  | 62 :: 61 :: r => some (.greaterEqual, r)
  | 62 :: 62 :: r => some (.shiftRight, r)
  | 62 :: r => some (.greater, r)
  | 47 :: 47 :: r => some (.doubleSlash, r)
  | 47 :: r => some (.slash, r)
  | 126 :: 61 :: r => some (.unequal, r)
  | 126 :: r => some (.tilde, r)
  | 58 :: 58 :: r => some (.doubleColon, r)
  | 58 :: r => some (.colon, r)
  | 43 :: r => some (.plus, r)
  | 45 :: r => some (.minus, r)
  | 42 :: r => some (.star, r)
  | 37 :: r => some (.percent, r)
  | 94 :: r => some (.caret, r)
  | 35 :: r => some (.hash, r)
  | 38 :: r => some (.ampersand, r)
  | 124 :: r => some (.bar, r)
  | 40 :: r => some (.openParen, r)
  | 41 :: r => some (.closeParen, r)
  | 123 :: r => some (.openBrace, r)
  | 125 :: r => some (.closeBrace, r)
  | 91 :: r => some (.openBracket, r)
  | 93 :: r => some (.closeBracket, r)
  | 59 :: r => some (.semicolon, r)
  | 44 :: r => some (.comma, r)
  | _ => none

def word (s : Bytes) : Token :=
  match Keyword.ofName? (Bytes.toText s) with
  | some k => .keyword k
  | none => .name s

def comment (line : Nat) (bs : Bytes) : Except SourceError (Nat × Bytes) :=
  let long := match bs with
    | 91 :: rest => longOpening 0 rest
    | _ => none
  match long with
  | some (level, rest) =>
    match longString level line rest with
    | some (_, rest', line') => .ok (line', rest')
    | none => .error ⟨line, .unfinishedComment⟩
  | none => .ok (line, bs.dropWhile fun b => b ≠ 10 && b ≠ 13)

def one (line : Nat) (bs : Bytes) : Except SourceError (Lexeme × Bytes) :=
  match bs with
  | [] => .error ⟨line, .unexpected⟩
  | b :: rest =>
    if isNameStart b then
      .ok (⟨word (bs.takeWhile isNamePart), line⟩, bs.dropWhile isNamePart)
    else if isDigit b || (b = 46 && rest.head?.any isDigit) then numeral line bs
    else if b = 34 || b = 39 then
      (shortString b bs.length line [] rest).map fun (s, rest', line') => (⟨.string s, line'⟩, rest')
    else if b = 91 then
      match longOpening 0 rest with
      | some (level, rest') =>
        match longString level line rest' with
        | some (s, rest'', line') => .ok (⟨.string s, line'⟩, rest'')
        | none => .error ⟨line, .unfinishedLongString⟩
      | none =>
        if rest.head? = some 61 then .error ⟨line, .invalidLongBracket⟩
        else .ok (⟨.symbol .openBracket, line⟩, rest)
    else match symbol? bs with
      | some (s, rest') => .ok (⟨.symbol s, line⟩, rest')
      | none => .ok (⟨.stray b, line⟩, rest)

/-- The tokens from a line on. Each round takes at least one byte. -/
def scanFrom : Nat → Nat → List Lexeme → Bytes → Except SourceError (List Lexeme × Nat)
  | 0, line, out, _ => .ok (out.reverse, line)
  | fuel + 1, line, out, bs =>
    let (line, bs) := skipBlanks line bs
    match bs with
    | [] => .ok (out.reverse, line)
    | 45 :: 45 :: rest =>
      match comment line rest with
      | .ok (line', rest') => scanFrom fuel line' out rest'
      | .error e => .error e
    | bs =>
      match one line bs with
      | .ok (lexeme, rest) => scanFrom fuel lexeme.line (lexeme :: out) rest
      | .error e => .error e

def scan (source : Bytes) : Except SourceError (List Lexeme × Nat) :=
  scanFrom (source.length + 1) 1 [] source

end Token

end Pagewright.Script
