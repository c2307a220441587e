import Pagewright.Script.Term
import Pagewright.Script.Token

/-!
From tokens to scripts. Names are resolved while reading, so a script that mentions a label it cannot
reach, or assigns a constant, is refused here. Statements and expressions nest at most as deep as the
`level` of the scope allows. Every call spends one unit of fuel; `compile` gives enough for its tokens.
-/
namespace Pagewright.Script

inductive Attribute where
  | plain
  | constant
  | closing
deriving DecidableEq, Repr

structure Scope where
  /-- Locals, the innermost first, through the enclosing functions. -/
  names : List (Bytes × Attribute)
  /-- How many of them the function's own locals begin after. -/
  base : Nat
  /-- How many of them the block began with. -/
  outer : Nat
  /-- Labels of the block so far, with the number of locals in scope after them. -/
  labels : List (Bytes × Nat)
  /-- Labels of the enclosing blocks so far. -/
  outerLabels : List Bytes
  /-- Whether the function takes extra arguments. -/
  variadic : Bool
  inLoop : Bool
  /-- Locals without names, which keep the state of the function's loops. -/
  hidden : Nat
  /-- How many values wait for others, as operands, arguments and items do. -/
  waiting : Nat
  /-- How much deeper statements and expressions may nest. -/
  level : Nat

/-- A jump whose label has not been found yet, with the number of locals in scope at it. -/
structure Jump where
  label : Bytes
  depth : Nat
  line : Nat

structure Cursor where
  rest : List Lexeme
  /-- The line of the last token taken. -/
  line : Nat
  /-- The last line of the source. -/
  lastLine : Nat
  jumps : List Jump

abbrev Reading := StateT Cursor (Except SourceError)

namespace Reading

def peek : Reading (Option Token) := do
  return (← get).rest.head?.map (·.token)

def lineAhead : Reading Nat := do
  let c ← get
  return match c.rest with
    | l :: _ => l.line
    | [] => c.lastLine

def fail {α : Type} (fault : SourceFault) : Reading α := do
  throw ⟨← lineAhead, fault⟩

def advance : Reading Unit :=
  modify fun c => match c.rest with
    | l :: rest => { c with rest := rest, line := l.line }
    | [] => c

def accept (s : Symbol) : Reading Bool := do
  if (← peek) = some (.symbol s) then advance; return true else return false

def acceptWord (k : Keyword) : Reading Bool := do
  if (← peek) = some (.keyword k) then advance; return true else return false

def expect (s : Symbol) (what : String) : Reading Unit := do
  if !(← accept s) then fail (.expected what)

def expectWord (k : Keyword) (what : String) : Reading Unit := do
  if !(← acceptWord k) then fail (.expected what)

def name : Reading Bytes := do
  match ← peek with
  | some (.name s) => advance; return s
  | _ => fail (.expected "<name>")

/-- Whether the block ends here; `until` ends one only where it may. -/
def blockEnds (withUntil : Bool) : Reading Bool := do
  return match ← peek with
    | none => true
    | some (.keyword k) =>
      k = .else || k = .elseif || k = .end || (withUntil && k = .until)
    | _ => false

def onlyLabels : List Lexeme → Bool
  | [] => true
  | ⟨.keyword k, _⟩ :: _ => k = .else || k = .elseif || k = .end
  | ⟨.symbol .semicolon, _⟩ :: rest => onlyLabels rest
  | ⟨.symbol .doubleColon, _⟩ :: ⟨.name _, _⟩ :: ⟨.symbol .doubleColon, _⟩ :: rest =>
    onlyLabels rest
  | _ => false

/-- The operation of an operator between operands, and how strongly it binds to the left and to the
right. -/
def binary? : Token → Option (Option BinaryOp × Keyword × Nat × Nat)
  | .symbol s =>
    let op (o : BinaryOp) (l r : Nat) := some (some o, Keyword.nil, l, r)
    match s with
    | .plus => op (.arith .add) 10 10
    | .minus => op (.arith .sub) 10 10
    | .star => op (.arith .mul) 11 11
    | .percent => op (.arith .mod) 11 11
    | .caret => op (.arith .pow) 14 13
    | .slash => op (.arith .div) 11 11
    | .doubleSlash => op (.arith .floorDiv) 11 11
    | .ampersand => op (.bits .and) 6 6
    | .bar => op (.bits .or) 4 4
    | .tilde => op (.bits .xor) 5 5
    | .shiftLeft => op (.bits .left) 7 7
    | .shiftRight => op (.bits .right) 7 7
    | .concat => op .concat 9 8
    | .equal => op (.compare .equal) 3 3
    | .unequal => op (.compare .unequal) 3 3
    | .less => op (.compare .less) 3 3
    | .lessEqual => op (.compare .lessEqual) 3 3
    | .greater => op (.compare .greater) 3 3
    | .greaterEqual => op (.compare .greaterEqual) 3 3
    | _ => none
  | .keyword .and => some (none, .and, 2, 2)
  | .keyword .or => some (none, .or, 1, 1)
  | _ => none

def unary? : Token → Option UnaryOp
  | .symbol .minus => some .negate
  | .symbol .hash => some .length
  | .symbol .tilde => some .complement
  | .keyword .not => some .not
  | _ => none

def unaryStrength : Nat := 12

end Reading

namespace Scope

def find (n : Bytes) : Nat → List (Bytes × Attribute) → Option (Nat × Attribute)
  | _, [] => none
  | i, (m, a) :: rest => if m = n then some (i, a) else find n (i + 1) rest

def environment : Bytes := Bytes.ofText "_ENV"

def resolve (sc : Scope) (n : Bytes) (line : Nat) : Expr :=
  match find n 0 sc.names with
  | some (i, _) => .variable i
  | none =>
    match find environment 0 sc.names with
    | some (i, _) => .index (.variable i) (.constant (.string n)) line
    | none => .constant .nil

def locals (sc : Scope) : Nat := sc.names.length - sc.base + sc.hidden

def mostLocals : Nat := 200

/-- The places a function has for its locals and for values that wait. -/
def places : Nat := 254

def declare (sc : Scope) (ns : List (Bytes × Attribute)) : Reading Scope := do
  let sc := { sc with names := ns.reverse ++ sc.names }
  if mostLocals < sc.locals then Reading.fail .tooManyLocals
  return sc

def hold (sc : Scope) : Reading Scope := do
  if places ≤ sc.locals + sc.waiting then Reading.fail .tooManyValues
  return { sc with waiting := sc.waiting + 1 }

def ofLoop (sc : Scope) (hidden : Nat) (names : List Bytes) : Reading Scope :=
  declare { sc with inLoop := true, hidden := sc.hidden + hidden }
    (names.map fun n => (n, .plain))

def inner (sc : Scope) : Scope :=
  { sc with
    outer := sc.names.length
    labels := []
    outerLabels := sc.labels.map (·.1) ++ sc.outerLabels }

def deeper (sc : Scope) : Reading Scope :=
  match sc.level with
  | 0 => Reading.fail .tooDeep
  | n + 1 => return { sc with level := n }

def ofFunction (sc : Scope) (parameters : List Bytes) (variadic : Bool) : Reading Scope :=
  declare
    { sc with
      base := sc.names.length
      labels := []
      outerLabels := []
      variadic
      inLoop := false
      hidden := 0
      waiting := 0 }
    (parameters.map fun n => (n, .plain))

/-- Finds the labels of the jumps that a block has gathered, and hands the others on to the enclosing
block. A jump must not skip the declaration of a local that is in scope at the label. -/
def settle (sc : Scope) (before : List Jump) : Reading Unit := do
  let mut left := before
  for j in (← get).jumps do
    match sc.labels.lookup j.label with
    | some depth =>
      if j.depth < depth then
        throw ⟨j.line, .jumpIntoScope (Bytes.toText j.label)⟩
    | none => left := { j with depth := min j.depth sc.outer } :: left
  modify fun c => { c with jumps := left }

end Scope

open Reading

def assignable (sc : Scope) : Expr → Reading Unit
  | .variable i =>
    match sc.names[i]? with
    | some (_, .plain) => return ()
    | some (n, _) => fail (.assignsConstant (Bytes.toText n))
    | none => fail .unexpected
  | .index .. => return ()
  | _ => fail .unexpected

def parameters : Nat → List Bytes → Reading (List Bytes × Bool)
  | 0, _ => fail .tooDeep
  | fuel + 1, out => do
    if ← accept .ellipsis then
      expect .closeParen "')'"
      return (out.reverse, true)
    let n ← name
    if ← accept .comma then parameters fuel (n :: out)
    else
      expect .closeParen "')'"
      return ((n :: out).reverse, false)

def attributedNames : Nat → List (Bytes × Attribute) → Reading (List (Bytes × Attribute))
  | 0, _ => fail .tooDeep
  | fuel + 1, out => do
    let n ← name
    let kind ← if ← accept .less then do
        let a ← name
        expect .greater "'>'"
        if a = Bytes.ofText "const" then pure Attribute.constant
        else if a = Bytes.ofText "close" then pure Attribute.closing
        else fail (.unknownAttribute (Bytes.toText a))
      else pure Attribute.plain
    let out := (n, kind) :: out
    if ← accept .comma then attributedNames fuel out else return out.reverse

def moreNames : Nat → List Bytes → Reading (List Bytes)
  | 0, _ => fail .tooDeep
  | fuel + 1, out => do
    if ← accept .comma then moreNames fuel ((← name) :: out) else return out.reverse

mutual

/-- An expression whose operators all bind more strongly than `limit`. -/
def expression : Nat → Scope → Nat → Reading Expr
  | 0, _, _ => fail .tooDeep
  | fuel + 1, sc, limit => do
    let sc ← sc.deeper
    let left ← match (← peek).bind unary? with
      | some op => do
        let line ← lineAhead
        advance
        pure (Expr.unary op (← expression fuel sc unaryStrength) line)
      | none => simple fuel sc
    operators fuel sc limit left

def operators : Nat → Scope → Nat → Expr → Reading Expr
  | 0, _, _, _ => fail .tooDeep
  | fuel + 1, sc, limit, left => do
    match (← peek).bind binary? with
    | none => return left
    | some (op, word, l, r) =>
      if l ≤ limit then return left
      let line ← lineAhead
      advance
      let right ← match left with
        | .constant _ | .variable _ => expression fuel sc r
        | _ => do expression fuel (← sc.hold) r
      operators fuel sc limit (match op with
        | some op => .binary op left right line
        | none => if word = .and then .both left right else .either left right)

def simple : Nat → Scope → Reading Expr
  | 0, _ => fail .tooDeep
  | fuel + 1, sc => do
    match ← peek with
    | some (.number l) => advance; return .constant l
    | some (.string s) => advance; return .constant (.string s)
    | some (.keyword .nil) => advance; return .constant .nil
    | some (.keyword .true) => advance; return .constant (.boolean true)
    | some (.keyword .false) => advance; return .constant (.boolean false)
    | some (.symbol .ellipsis) =>
      if sc.variadic then advance; return .extra else fail .extraOutsideVariadic
    | some (.symbol .openBrace) => constructor fuel sc
    | some (.keyword .function) => advance; return .function (← function fuel sc [])
    | _ => suffixed fuel sc

def suffixed : Nat → Scope → Reading Expr
  | 0, _ => fail .tooDeep
  | fuel + 1, sc => do
    let e ← match ← peek with
      | some (.name n) => do
        let line ← lineAhead
        advance
        pure (sc.resolve n line)
      | some (.symbol .openParen) => do
        advance
        let e ← expression fuel sc 0
        expect .closeParen "')'"
        pure (Expr.first e)
      | _ => fail .unexpected
    suffixes fuel sc e

def suffixes : Nat → Scope → Expr → Reading Expr
  | 0, _, _ => fail .tooDeep
  | fuel + 1, sc, e => do
    match ← peek with
    | some (.symbol .dot) =>
      advance
      let n ← name
      suffixes fuel sc (.index e (.constant (.string n)) (← get).line)
    | some (.symbol .openBracket) =>
      advance
      let k ← expression fuel sc 0
      expect .closeBracket "']'"
      suffixes fuel sc (.index e k (← get).line)
    | some (.symbol .colon) =>
      advance
      let n ← name
      let line ← lineAhead
      let args ← arguments fuel (← (← sc.hold).hold)
      suffixes fuel sc (.method e n args line)
    | some (.symbol .openParen) | some (.symbol .openBrace) | some (.string _) =>
      let line ← lineAhead
      let args ← arguments fuel (← sc.hold)
      suffixes fuel sc (.call e args line)
    | _ => return e

def arguments : Nat → Scope → Reading (List Expr)
  | 0, _ => fail .tooDeep
  | fuel + 1, sc => do
    match ← peek with
    | some (.string s) => advance; return [.constant (.string s)]
    | some (.symbol .openBrace) => return [← constructor fuel sc]
    | some (.symbol .openParen) =>
      advance
      if ← accept .closeParen then return []
      let es ← expressions fuel sc []
      expect .closeParen "')'"
      return es
    | _ => fail (.expected "function arguments")

def expressions : Nat → Scope → List Expr → Reading (List Expr)
  | 0, _, _ => fail .tooDeep
  | fuel + 1, sc, out => do
    let e ← expression fuel sc 0
    let sc ← sc.hold
    if ← accept .comma then expressions fuel sc (e :: out) else return (e :: out).reverse

def constructor : Nat → Scope → Reading Expr
  | 0, _ => fail .tooDeep
  | fuel + 1, sc => do
    let line ← lineAhead
    expect .openBrace "'\x7b'"
    let fs ← fields fuel (← sc.hold) []
    let list := fs.countP fun | .item _ => true | .keyed .. => false
    return .table list (fs.length - list) fs line

def fields : Nat → Scope → List Field → Reading (List Field)
  | 0, _, _ => fail .tooDeep
  | fuel + 1, sc, out => do
    if ← accept .closeBrace then return out.reverse
    let f ← match (← get).rest with
      | ⟨.symbol .openBracket, _⟩ :: _ => do
        advance
        let k ← expression fuel sc 0
        expect .closeBracket "']'"
        expect .assign "'='"
        pure (Field.keyed k (← expression fuel sc 0))
      | ⟨.name n, _⟩ :: ⟨.symbol .assign, _⟩ :: _ => do
        advance
        advance
        pure (Field.keyed (.constant (.string n)) (← expression fuel sc 0))
      | _ => do pure (Field.item (← expression fuel sc 0))
    if (← accept .comma) || (← accept .semicolon) then fields fuel sc (f :: out)
    else
      expect .closeBrace "'\x7d'"
      return (f :: out).reverse

/-- A function from its parameters on, with some parameters before them. -/
def function : Nat → Scope → List Bytes → Reading Function
  | 0, _, _ => fail .tooDeep
  | fuel + 1, sc, implied => do
    expect .openParen "'('"
    let (ps, variadic) ← if ← accept .closeParen then pure ([], false)
      else parameters fuel []
    let ps := implied ++ ps
    let sc ← sc.ofFunction ps variadic
    let before := (← get).jumps
    modify fun c => { c with jumps := [] }
    let (body, _) ← block fuel sc
    expectWord .end "'end'"
    if let j :: _ := (← get).jumps then
      throw ⟨j.line, .labelMissing (Bytes.toText j.label)⟩
    modify fun c => { c with jumps := before }
    return .mk ps.length variadic body

def block : Nat → Scope → Reading (List Stmt × Scope)
  | 0, _ => fail .tooDeep
  | fuel + 1, sc => do
    let before := (← get).jumps
    modify fun c => { c with jumps := [] }
    let (body, sc') ← statements fuel sc.inner []
    sc'.settle before
    return (body, sc')

def statements : Nat → Scope → List Stmt → Reading (List Stmt × Scope)
  | 0, _, _ => fail .tooDeep
  | fuel + 1, sc, out => do
    if ← blockEnds true then return (out.reverse, sc)
    if (← peek) = some (.keyword .return) then
      let sc ← sc.deeper
      advance
      let es ← if (← blockEnds true) || (← peek) = some (.symbol .semicolon) then pure []
        else expressions fuel sc []
      discard <| accept .semicolon
      return ((.returns es :: out).reverse, sc)
    let (s, sc') ← statement fuel sc
    statements fuel sc' (match s with
      | some s => s :: out
      | none => out)

def statement : Nat → Scope → Reading (Option Stmt × Scope)
  | 0, _ => fail .tooDeep
  | fuel + 1, outside => do
    let sc ← outside.deeper
    let line ← lineAhead
    match ← peek with
    | some (.symbol .semicolon) => advance; return (none, outside)
    | some (.keyword .if) =>
      advance
      return (some (← branches fuel sc), outside)
    | some (.keyword .while) =>
      advance
      let c ← expression fuel sc 0
      expectWord .do "'do'"
      let (body, _) ← block fuel { sc with inLoop := true }
      expectWord .end "'end'"
      return (some (.whileLoop c body), outside)
    | some (.keyword .do) =>
      advance
      let (body, _) ← block fuel sc
      expectWord .end "'end'"
      return (some (.block body), outside)
    | some (.keyword .for) =>
      advance
      return (some (← loop fuel sc line), outside)
    | some (.keyword .repeat) =>
      advance
      let (body, sc') ← block fuel { sc with inLoop := true }
      expectWord .until "'until'"
      let c ← expression fuel { sc' with inLoop := sc.inLoop } 0
      return (some (.untilLoop (body ++ [.exitWhen c])), outside)
    | some (.keyword .function) =>
      advance
      let n ← name
      let e := sc.resolve n line
      let (target, isMethod) ← functionName fuel e
      assignable sc target
      let f ← function fuel sc (if isMethod then [Bytes.ofText "self"] else [])
      return (some (.assign [target] [.function f]), outside)
    | some (.keyword .local) =>
      advance
      if ← acceptWord .function then
        let n ← name
        let outside ← outside.declare [(n, .plain)]
        let f ← function fuel { outside with level := sc.level } []
        return (some (.localFunction f), outside)
      let ns ← attributedNames fuel []
      let es ← if ← accept .assign then expressions fuel sc [] else pure []
      let closing := ns.findIdx? fun n => n.2 = .closing
      if 1 < ns.countP fun n => n.2 = .closing then fail .unexpected
      return (some (.locals ns.length closing es line), ← outside.declare ns)
    | some (.symbol .doubleColon) =>
      advance
      let n ← name
      expect .doubleColon "'::'"
      if (sc.labels.lookup n).isSome || sc.outerLabels.contains n then
        fail (.labelRepeated (Bytes.toText n))
      let depth := if onlyLabels (← get).rest then sc.outer else sc.names.length
      return (some (.label n depth), { outside with labels := (n, depth) :: outside.labels })
    | some (.keyword .break) =>
      advance
      if !sc.inLoop then throw ⟨line, .breakOutsideLoop⟩
      return (some .breakLoop, outside)
    | some (.keyword .goto) =>
      advance
      let n ← name
      modify fun c => { c with jumps := ⟨n, sc.names.length, line⟩ :: c.jumps }
      return (some (.goto n line), outside)
    | _ =>
      let e ← suffixed fuel sc
      match ← peek with
      | some (.symbol .assign) | some (.symbol .comma) =>
        let targets ← targetsAfter fuel sc [e]
        expect .assign "'='"
        let es ← expressions fuel sc []
        return (some (.assign targets es), outside)
      | _ =>
        match e with
        | .call .. | .method .. => return (some (.call e), outside)
        | _ => fail .unexpected

def targetsAfter : Nat → Scope → List Expr → Reading (List Expr)
  | 0, _, _ => fail .tooDeep
  | fuel + 1, sc, out => do
    if let e :: _ := out then assignable sc e
    if ← accept .comma then
      let e ← suffixed fuel sc
      targetsAfter fuel (← sc.deeper) (e :: out)
    else return out.reverse

def functionName : Nat → Expr → Reading (Expr × Bool)
  | 0, _ => fail .tooDeep
  | fuel + 1, e => do
    let line ← lineAhead
    if ← accept .dot then
      functionName fuel (.index e (.constant (.string (← name))) line)
    else if ← accept .colon then
      return (.index e (.constant (.string (← name))) line, true)
    else return (e, false)

def branches : Nat → Scope → Reading Stmt
  | 0, _ => fail .tooDeep
  | fuel + 1, sc => do
    let c ← expression fuel sc 0
    expectWord .then "'then'"
    let (yes, _) ← block fuel sc
    if ← acceptWord .elseif then return .branch c yes [← branches fuel sc]
    let no ← if ← acceptWord .else then (·.1) <$> block fuel sc else pure []
    expectWord .end "'end'"
    return .branch c yes no

def loop : Nat → Scope → Nat → Reading Stmt
  | 0, _, _ => fail .tooDeep
  | fuel + 1, sc, line => do
    let n ← name
    if ← accept .assign then
      let start ← expression fuel sc 0
      expect .comma "','"
      let limit ← expression fuel sc 0
      let step ← if ← accept .comma then some <$> expression fuel sc 0 else pure none
      expectWord .do "'do'"
      let sc' ← sc.ofLoop 3 [n]
      let (body, _) ← block fuel sc'
      expectWord .end "'end'"
      return .countLoop start limit step body line
    else
      let ns ← moreNames fuel [n]
      expectWord .in "'=' or 'in'"
      let es ← expressions fuel sc []
      expectWord .do "'do'"
      let sc' ← sc.ofLoop 4 ns
      let (body, _) ← block fuel sc'
      expectWord .end "'end'"
      return .eachLoop ns.length es body line

end

def isBinary (source : Bytes) : Bool :=
  source.head? = some 0x1b

/-- The function that runs a source. Its environment is its only local outside; nesting may use up to
`level` steps. -/
def compile (source : Bytes) (level : Nat) : Except SourceError Function := do
  if isBinary source then throw ⟨0, .binary⟩
  let (tokens, lastLine) ← Token.scan source
  let sc : Scope := ⟨[(Scope.environment, .plain)], 1, 1, [], [], true, false, 0, 0, level⟩
  let read : Reading Function := do
    let (body, _) ← block (16 * tokens.length + 64) sc
    if (← peek).isSome then fail (.expected "<eof>")
    if let j :: _ := (← get).jumps then
      throw ⟨j.line, .labelMissing (Bytes.toText j.label)⟩
    return .mk 0 true body
  (·.1) <$> read.run ⟨tokens, 1, lastLine, []⟩

end Pagewright.Script
