import Pagewright.Script.Operation

/-!
The machine that runs scripts: a control, a stack of frames and a store. `step` does one piece of
work; what needs the library is handed out as `Next.library`. A coroutine is the part of the stack
above its frame, so that to yield is to cut the stack there.
-/
namespace Pagewright.Script

inductive Control where
  | eval (e : Expr) (env : Env)
  /-- The statements left in a block. -/
  | exec (rest block : List Stmt) (env : Env)
  /-- Values for the frame on top. -/
  | deliver (vs : List Value)
  | apply (function : Value) (arguments : List Value) (site : Option Site)
  | exit (e : Exit)

structure Config where
  control : Control
  stack : List Frame
  store : Store

inductive Next where
  | more (c : Config)
  /-- A call of a library function or of a tag. -/
  | library (function : Value) (arguments : List Value) (site : Option Site) (stack : List Frame)
      (store : Store)
  | finished (vs : List Value) (store : Store)
  | failed (v : Value) (store : Store)

def deepestScripts : Nat := 190000

def deepestLibrary : Nat := 200

def Site.text (s : Site) : Bytes :=
  s.chunk ++ Bytes.ofText (":" ++ Decimal.intText s.line ++ ": ")

def located (site : Option Site) (message : Bytes) : Value :=
  .string (match site with
    | some s => s.text ++ message
    | none => message)

def Fault.value (f : Fault) (site : Option Site) : Value :=
  located site (Bytes.ofText f.message)

namespace Machine

def head (vs : List Value) : Value := vs.headD .nil

def adjust : Nat → List Value → List Value
  | 0, _ => []
  | n + 1, [] => .nil :: adjust n []
  | n + 1, v :: vs => v :: adjust n vs

def raise (v : Value) (stack : List Frame) (store : Store) : Config :=
  ⟨.exit (.raise v), stack, store⟩

def fault (f : Fault) (site : Option Site) (stack : List Frame) (store : Store) : Config :=
  raise (f.value site) stack store

def deliver (vs : List Value) (stack : List Frame) (store : Store) : Config :=
  ⟨.deliver vs, stack, store⟩

def evalAll (es : List Expr) (env : Env) (stack : List Frame) (store : Store) : Config :=
  match es with
  | [] => deliver [] stack store
  | [e] => ⟨.eval e env, stack, store⟩
  | e :: es => ⟨.eval e env, .items es [] env :: stack, store⟩

def callBack (f : Value) (args : List Value) (site : Option Site) (stack : List Frame)
    (store : Store) : Config :=
  let d := store.depth
  if deepestLibrary ≤ d.library + 1 then fault .nestedCalls site stack store
  else
    ⟨.apply f args site, .boundary d :: stack,
      { store with depth := { d with library := d.library + 1 } }⟩

def answer (a : Answer) (site : Site) (stack : List Frame) (store : Store) : Config :=
  match a with
  | .value v => deliver [v] stack store
  | .call f args => callBack f args (some site) (.first :: stack) store
  | .fault f => fault f (some site) stack store

def verdict (a : Answer) (negated : Bool) (site : Site) (stack : List Frame) (store : Store) :
    Config :=
  match a with
  | .value v => deliver [.boolean (v.truthy != negated)] stack store
  | .call f args => callBack f args (some site) (.verdict negated :: stack) store
  | .fault f => fault f (some site) stack store

def callers : List Frame → List (Option Site)
  | [] => []
  | .activation site _ :: rest => site :: callers rest
  | .protect _ site _ :: rest => site :: callers rest
  | .coroutine .. :: _ => []
  | _ :: rest => callers rest

/-- The site a level of an error names: 1 is where the error was raised, 2 where that function was
called, and so on. -/
def siteAt (level : Nat) (site : Option Site) (stack : List Frame) : Option Site :=
  match level with
  | 0 => none
  | 1 => site
  | n + 2 => ((callers stack)[n]?).join

def labelled (name : Bytes) : List Stmt → Option (List Stmt × Nat)
  | [] => none
  | .label n depth :: rest => if n = name then some (rest, depth) else labelled name rest
  | _ :: rest => labelled name rest

/-- The stack below the running function, with its activation; `none` if something is to be closed
before. -/
def activation? : List Frame → Option (Option Site × Depth × List Frame)
  | [] => none
  | .activation site caller :: rest => some (site, caller, rest)
  | .closes _ :: _ => none
  | .exits .. :: _ => none
  | _ :: rest => activation? rest

def enter (c : Closure) (args : List Value) (site : Option Site) (caller : Depth)
    (stack : List Frame) (store : Store) : Config :=
  let n := c.function.parameters
  let (slots, heap) := store.heap.newCells (adjust n args)
  let extra := if c.function.variadic then args.drop n else []
  let body := c.function.body
  ⟨.exec body body ⟨slots ++ c.slots, extra, c.chunk⟩, .activation site caller :: stack,
    { store with heap }⟩

def tailApply (f : Value) (args : List Value) (site : Site) (stack : List Frame) (store : Store) :
    Config :=
  match f, activation? stack with
  | .closure r, some (caller, depth, rest) =>
    enter (store.heap.closures.getD r default) args caller depth rest store
  | _, _ => ⟨.apply f args (some site), .returning :: stack, store⟩

def applyOrTail (tail : Bool) (f : Value) (args : List Value) (site : Site) (stack : List Frame)
    (store : Store) : Config :=
  if tail then tailApply f args site stack store else ⟨.apply f args (some site), stack, store⟩

/-- A call expression in its place; the last call of a function is made in place of it. -/
def evalCall (e : Expr) (tail : Bool) (env : Env) (stack : List Frame) (store : Store) : Config :=
  match e with
  | .call f args line => ⟨.eval f env, .callee args env line tail :: stack, store⟩
  | .method o name args line => ⟨.eval o env, .receiver name args env line tail :: stack, store⟩
  | e => ⟨.eval e env, stack, store⟩

def mostWaiting : Nat := 50

def storeWaiting (c : Construction) (more : List Value) (store : Store) : Store :=
  { store with heap := { store.heap with
      tables := store.heap.tables.modify c.table fun t =>
        t.storeItems c.stored (c.waiting.reverse ++ more) } }

def constructField (c : Construction) (f : Field) (rest : List Field) (env : Env) (site : Site)
    (stack : List Frame) (store : Store) : Config :=
  match f with
  | .item e =>
    ⟨.eval e env, (if rest.isEmpty && e.isOpen then .spread c else .item c rest env site) :: stack,
      store⟩
  | .keyed (.constant k) e =>
    ⟨.eval e env, .fieldValue c k.value rest env site :: stack, store⟩
  | .keyed k e => ⟨.eval k env, .fieldKey c e rest env site :: stack, store⟩

def construct (c : Construction) (fields : List Field) (env : Env) (site : Site)
    (stack : List Frame) (store : Store) : Config :=
  match fields with
  | [] => deliver [.table c.table] stack (storeWaiting c [] store)
  | f :: rest =>
    let n := c.waiting.length
    if n < mostWaiting then constructField c f rest env site stack store
    else constructField ⟨c.table, c.stored + n, []⟩ f rest env site stack (storeWaiting c [] store)

/-- How many places the list of a constructor is given: those of an open last item come later. -/
def listPlaces (list : Nat) (fields : List Field) : Nat :=
  match fields.getLast? with
  | some (.item e) => if e.isOpen then list - 1 else list
  | _ => list

def eval (e : Expr) (env : Env) (stack : List Frame) (store : Store) : Config :=
  match e with
  | .constant l => deliver [l.value] stack store
  | .extra => deliver env.extra stack store
  | .variable i =>
    deliver [store.heap.cells.getD (env.slots.getD i 0) .nil] stack store
  | .index o k line => ⟨.eval o env, .object k env line :: stack, store⟩
  | .call .. | .method .. => evalCall e false env stack store
  | .function f =>
    let (r, heap) := store.heap.newClosure ⟨f, env.slots, env.chunk⟩
    deliver [.closure r] stack { store with heap }
  | .unary op e line => ⟨.eval e env, .unary op (env.site line) :: stack, store⟩
  | .binary op l r line => ⟨.eval l env, .left op r env line :: stack, store⟩
  | .both l r => ⟨.eval l env, .both r env :: stack, store⟩
  | .either l r => ⟨.eval l env, .either r env :: stack, store⟩
  | .table list others fields line =>
    let (r, heap) := store.heap.newTable (Table.withRoom (listPlaces list fields) others)
    construct ⟨r, 0, []⟩ fields env (env.site line) stack { store with heap }
  | .first e => ⟨.eval e env, .first :: stack, store⟩

def target (places : List Place) (values : List Expr) (env : Env) (stack : List Frame)
    (store : Store) : List Expr → Config
  | [] => evalAll values env (.assigned places env.chunk :: stack) store
  | .variable i :: rest =>
    target (.cell (env.slots.getD i 0) :: places) values env stack store rest
  | .index o k line :: rest =>
    ⟨.eval o env, .targetObject k line rest places values env :: stack, store⟩
  | _ :: rest => target places values env stack store rest

def assign (chunk : Bytes) (stack : List Frame) (store : Store) : List (Place × Value) → Config
  | [] => deliver [] stack store
  | (.cell r, v) :: rest =>
    assign chunk stack { store with heap := store.heap.setCell r v } rest
  | (.field o k line, v) :: rest =>
    match storing store longestChain o k v with
    | .field r k => assign chunk stack { store with heap := store.heap.setField r k v } rest
    | .call f args =>
      callBack f args (some ⟨chunk, line⟩) (.assigning rest chunk :: stack) store
    | .fault f => fault f (some ⟨chunk, line⟩) stack store

def exec (rest block : List Stmt) (env : Env) (stack : List Frame) (store : Store) : Config :=
  match rest with
  | [] => deliver [] stack store
  | s :: rest =>
    let below := .after rest block env :: stack
    match s with
    | .call e => ⟨.eval e env, below, store⟩
    | .locals n closes es line =>
      evalAll es env (.locals n closes rest block env (env.site line) :: stack) store
    | .localFunction f =>
      let (cell, heap) := store.heap.newCell .nil
      let env := { env with slots := cell :: env.slots }
      let (r, heap) := heap.newClosure ⟨f, env.slots, env.chunk⟩
      ⟨.exec rest block env, stack, { store with heap := heap.setCell cell (.closure r) }⟩
    | .assign targets es => target [] es env below store targets
    | .block b => ⟨.exec b b env, below, store⟩
    | .whileLoop c b => ⟨.eval c env, .whileTest c b env :: below, store⟩
    | .untilLoop b => ⟨.exec b b env, .untilBody b env :: below, store⟩
    | .exitWhen c => ⟨.eval c env, .exitTest :: stack, store⟩
    | .branch c yes no => ⟨.eval c env, .branch yes no env :: below, store⟩
    | .countLoop start limit step b line =>
      evalAll [.first start, .first limit, step.getD (.constant (.integer 1))] env
        (.countRange b env (env.site line) :: below) store
    | .eachLoop n es b line => evalAll es env (.eachRange n b env (env.site line) :: below) store
    | .returns [e] =>
      match e with
      | .call .. | .method .. => evalCall e true env stack store
      | e => ⟨.eval e env, .returning :: stack, store⟩
    | .returns es => evalAll es env (.returning :: stack) store
    | .breakLoop => ⟨.exit .breakLoop, stack, store⟩
    | .goto l _ => ⟨.exit (.goto l), below, store⟩
    | .label .. => ⟨.exec rest block env, stack, store⟩

def integerLimit (limit : Value) (step : Int64) : Except Fault (Option Int64) :=
  match limit.toNumber? with
  | some (.integer l) => .ok (some l)
  | some (.float d) =>
    if d.isFinite then
      let i : Int := if step < 0 then d.ceilInt else d.floorInt
      if 0x8000000000000000 ≤ i then .ok (if step < 0 then none else some Int64.maxValue)
      else if i < -0x8000000000000000 then .ok (if step < 0 then some Int64.minValue else none)
      else .ok (some (Int64.ofInt i))
    else if d.isNaN || d.negative then
      .ok (if 0 < step then none else some Int64.minValue)
    else .ok (if step < 0 then none else some Int64.maxValue)
  | _ => .error (.loopValue "limit")

/-- The first round of a counting loop; `none` if there is none. The number of rounds is fixed
beforehand, so an integer never passes its range. -/
def counter? (start limit step : Value) : Except Fault (Option Counter) :=
  match start, step with
  | .integer a, .integer s =>
    if s = 0 then .error .loopStep
    else match integerLimit limit s with
      | .error f => .error f
      | .ok none => .ok none
      | .ok (some l) =>
        if (if 0 < s then l < a else a < l) then .ok none
        else .ok (some (.integers a ((l.toInt - a.toInt) / s.toInt).toNat s))
  | _, _ =>
    let number (v : Value) : Option Double := v.toNumber?.bind Value.toDouble?
    match number limit, number step, number start with
    | none, _, _ => .error (.loopValue "limit")
    | _, none, _ => .error (.loopValue "step")
    | _, _, none => .error (.loopValue "initial value")
    | some l, some s, some a =>
      if s.magnitude = 0 then .error .loopStep
      else if inRange s a l then .ok (some (.floats a l s))
      else .ok none
where
  /-- Whether a value has not passed the limit in the direction of the step. -/
  inRange (s a l : Double) : Bool :=
    match Double.compare? a l with
    | some .eq => true
    | some o => if s.negative then o = .gt else o = .lt
    | none => false

def Counter.next? : Counter → Option Counter
  | .integers now rounds step =>
    if rounds = 0 then none else some (.integers (now + step) (rounds - 1) step)
  | .floats now limit step =>
    let now := now.add step
    if counter?.inRange step now limit then some (.floats now limit step) else none

def countRound (c : Counter) (body : List Stmt) (env : Env) (stack : List Frame) (store : Store) :
    Config :=
  let v : Value := match c with
    | .integers now .. => .integer now
    | .floats now .. => .float now
  let (cell, heap) := store.heap.newCell v
  ⟨.exec body body { env with slots := cell :: env.slots }, .countBody c body env :: stack,
    { store with heap }⟩

def eachRound (iterator state control : Value) (names : Nat) (body : List Stmt) (env : Env)
    (site : Site) (stack : List Frame) (store : Store) : Config :=
  callBack iterator [state, control] (some site)
    (.eachStep iterator state names body env site :: stack) store

def closable (store : Store) (v : Value) : Bool :=
  !v.truthy || !(store.metamethod v Event.close).isNil

def bindLocals (n : Nat) (closes : Option Nat) (vs : List Value) (rest block : List Stmt)
    (env : Env) (site : Site) (stack : List Frame) (store : Store) : Config :=
  let vs := adjust n vs
  let (slots, heap) := store.heap.newCells vs
  let env' := { env with slots := slots ++ env.slots }
  match closes.bind fun i => vs[i]? with
  | none => ⟨.exec rest block env', stack, { store with heap }⟩
  | some v =>
    if closable store v then ⟨.exec rest block env', .closes v :: stack, { store with heap }⟩
    else fault .unclosable (some site) stack store

def handed (mode : ResumeMode) (vs : List Value) : List Value :=
  match mode with
  | .flagged => .boolean true :: vs
  | .plain => vs

def refuse (f : Fault) (mode : ResumeMode) (site : Option Site) (stack : List Frame)
    (store : Store) : Config :=
  match mode with
  | .flagged => deliver [.boolean false, f.value none] stack store
  | .plain => fault f site stack store

def resume (t : Nat) (args : List Value) (mode : ResumeMode) (site : Option Site)
    (stack : List Frame) (store : Store) : Config :=
  let d := store.depth
  let below := .coroutine t mode site store.running d :: stack
  let entered (scripts : Nat) : Store :=
    { store with
      heap := store.heap.setThread t .running
      running := some t
      depth := ⟨scripts, d.library + 1⟩ }
  if deepestLibrary ≤ d.library + 1 then refuse .nestedCalls mode site stack store
  else match store.heap.threads.getD t .dead with
    | .fresh f => ⟨.apply f args none, below, entered 0⟩
    | .suspended frames scripts => deliver args (frames ++ below) (entered scripts)
    | .running => refuse (.resumption "non-suspended") mode site stack store
    | .dead => refuse (.resumption "dead") mode site stack store

/-- Cuts a stack at the innermost coroutine: the frames above, last first, and the rest. -/
def cut (above : List Frame) : List Frame → Option (List Frame × Nat × ResumeMode × Option Nat
    × Depth × List Frame)
  | [] => none
  | .coroutine t mode _ resumer caller :: rest => some (above, t, mode, resumer, caller, rest)
  | f :: rest => cut (f :: above) rest

def yield (vs : List Value) (site : Option Site) (stack : List Frame) (store : Store) : Config :=
  match cut [] stack with
  | none =>
    fault (if store.running.isSome then .yieldAcross else .yieldOutside) site stack store
  | some (above, t, mode, resumer, caller, rest) =>
    let store :=
      { store with
        heap := store.heap.setThread t (.suspended above.reverse store.depth.scripts)
        running := resumer
        depth := caller }
    deliver (handed mode vs) rest store

def protect (handler : Option Value) (f : Value) (args : List Value) (site : Option Site)
    (stack : List Frame) (store : Store) : Config :=
  let d := store.depth
  let stack := .protect handler site d :: stack
  if deepestLibrary ≤ d.library + 1 then fault .nestedCalls none stack store
  else
    ⟨.apply f args none, stack, { store with depth := { d with library := d.library + 1 } }⟩

/-- Raises the error of a script. A string gets the place that the level names. -/
def raiseError (args : List Value) (site : Option Site) (stack : List Frame) (store : Store) :
    Config :=
  let v := head args
  let level : Except Fault Nat := match args[1]? with
    | none | some (.nil : Value) => .ok 1
    | some (l : Value) =>
      match l.toNumber?.bind Value.toInteger? with
      | some i => .ok i.toInt.toNat
      | none => .error (.badArgument 2 "error" ("number expected, got " ++ l.typeName))
  match level, v with
  | .error f, _ => fault f site stack store
  | .ok n, .string s => raise (located (siteAt n site stack) s) stack store
  | .ok _, v => raise v stack store

def apply (f : Value) (args : List Value) (site : Option Site) (stack : List Frame)
    (store : Store) : Next :=
  match f with
  | .closure r =>
    let d := store.depth
    if deepestScripts ≤ d.scripts then .more (fault .stackOverflow site stack store)
    else .more (enter (store.heap.closures.getD r default) args site d stack
      { store with depth := { d with scripts := d.scripts + 1 } })
  | .builtin (.control .pcall) =>
    match args with
    | [] => .more (fault (.badArgument 1 "pcall" "value expected") site stack store)
    | f :: args => .more (protect none f args site stack store)
  | .builtin (.control .xpcall) =>
    match args with
    | f :: h :: args =>
      if h.isFunction then .more (protect (some h) f args site stack store)
      else .more (fault (.badArgument 2 "xpcall" ("function expected, got " ++ h.typeName)) site
        stack store)
    | _ => .more (fault (.badArgument 2 "xpcall" "function expected, got no value") site stack
        store)
  | .builtin (.control .error) => .more (raiseError args site stack store)
  | .builtin (.control .resume) =>
    match args with
    | .thread t :: args => .more (resume t args .flagged site stack store)
    | _ => .more (fault (.badArgument 1 "resume" "coroutine expected") site stack store)
  | .builtin (.control .yield) => .more (yield args site stack store)
  | .generator r =>
    match store.heap.generators.getD r default with
    | .wrap t => .more (resume t args .plain site stack store)
    | .matches .. => .library f args site stack store
  | .builtin _ | .hosted _ => .library f args site stack store
  | f =>
    match store.metamethod f Event.call with
    | .nil => .more (fault (.call f.typeName) site stack store)
    | g => .more ⟨.apply g (f :: args) site, stack, store⟩

def receive (vs : List Value) (frame : Frame) (stack : List Frame) (store : Store) : Config :=
  let v := head vs
  match frame with
  | .items [] done _ => deliver (done.reverse ++ vs) stack store
  | .items (e :: rest) done env => ⟨.eval e env, .items rest (v :: done) env :: stack, store⟩
  | .callee args env line tail =>
    evalAll args env (.arguments v [] (env.site line) tail :: stack) store
  | .arguments f before site tail => applyOrTail tail f (before ++ vs) site stack store
  | .receiver name args env line tail =>
    answer (index store longestChain v (.string name)) (env.site line)
      (.found v args env line tail :: stack) store
  | .found o args env line tail =>
    evalAll args env (.arguments v [o] (env.site line) tail :: stack) store
  | .first => deliver [v] stack store
  | .unary op site => answer (unary store op v) site stack store
  | .left op r env line => ⟨.eval r env, .right op v (env.site line) :: stack, store⟩
  | .right op l site =>
    match op with
    | .arith op => answer (arith store op l v) site stack store
    | .bits op => answer (bitwise store op l v) site stack store
    | .concat => answer (concat store l v) site stack store
    | .compare op =>
      let (a, negated) := compareValues store op l v
      verdict a negated site stack store
  | .both r env =>
    if v.truthy then ⟨.eval r env, if r.isOpen then .first :: stack else stack, store⟩
    else deliver [v] stack store
  | .either r env =>
    if v.truthy then deliver [v] stack store
    else ⟨.eval r env, if r.isOpen then .first :: stack else stack, store⟩
  | .verdict negated => deliver [.boolean (v.truthy != negated)] stack store
  | .object k env line => ⟨.eval k env, .key v (env.site line) :: stack, store⟩
  | .key o site => answer (index store longestChain o v) site stack store
  | .spread c => deliver [.table c.table] stack (storeWaiting c vs store)
  | .item c rest env site =>
    construct { c with waiting := v :: c.waiting } rest env site stack store
  | .fieldKey c e rest env site => ⟨.eval e env, .fieldValue c v rest env site :: stack, store⟩
  | .fieldValue c k rest env site =>
    match checkedKey k with
    | .ok k => construct c rest env site stack
        { store with heap := store.heap.setField c.table k v }
    | .error f => fault f (some site) stack store
  | .after rest block env => ⟨.exec rest block env, stack, store⟩
  | .locals n closes rest block env site =>
    bindLocals n closes vs rest block env site stack store
  | .targetObject k line rest places values env =>
    ⟨.eval k env, .targetKey v line rest places values env :: stack, store⟩
  | .targetKey o line rest places values env =>
    target (.field o v line :: places) values env stack store rest
  | .assigned places chunk =>
    assign chunk stack store (places.zip (adjust places.length vs).reverse)
  | .assigning left chunk => assign chunk stack store left
  | .branch yes no env =>
    let b := if v.truthy then yes else no
    ⟨.exec b b env, stack, store⟩
  | .whileTest c b env =>
    if v.truthy then ⟨.exec b b env, .whileBody c b env :: stack, store⟩
    else deliver [] stack store
  | .whileBody c b env => ⟨.eval c env, .whileTest c b env :: stack, store⟩
  | .untilBody b env => ⟨.exec b b env, .untilBody b env :: stack, store⟩
  | .exitTest =>
    if v.truthy then ⟨.exit .breakLoop, stack, store⟩ else deliver [] stack store
  | .countRange b env site =>
    match counter? v (vs.getD 1 .nil) (vs.getD 2 .nil) with
    | .ok (some c) => countRound c b env stack store
    | .ok none => deliver [] stack store
    | .error f => fault f (some site) stack store
  | .countBody c b env =>
    match Counter.next? c with
    | some c => countRound c b env stack store
    | none => deliver [] stack store
  | .eachRange n b env site =>
    let closing := vs.getD 3 .nil
    if !closable store closing then fault .unclosable (some site) stack store
    else
      let stack := if closing.truthy then .closes closing :: stack else stack
      eachRound v (vs.getD 1 .nil) (vs.getD 2 .nil) n b env site stack store
  | .eachStep f s n b env site =>
    if v.isNil then deliver [] stack store
    else
      let (slots, heap) := store.heap.newCells (adjust n vs)
      ⟨.exec b b { env with slots := slots ++ env.slots }, .eachBody f s v n b env site :: stack,
        { store with heap }⟩
  | .eachBody f s c n b env site => eachRound f s c n b env site stack store
  | .returning => ⟨.exit (.returns vs), stack, store⟩
  | .activation _ caller => deliver [] stack { store with depth := caller }
  | .boundary caller => deliver vs stack { store with depth := caller }
  | .protect _ _ caller => deliver (.boolean true :: vs) stack { store with depth := caller }
  | .handling caller => deliver (.boolean false :: vs) stack { store with depth := caller }
  | .coroutine t mode _ resumer caller =>
    deliver (handed mode vs) stack
      { store with heap := store.heap.setThread t .dead, running := resumer, depth := caller }
  | .closes c => closeValue c (.done vs) stack store
  | .exits e caller =>
    let store := { store with depth := caller }
    match e with
    | .done vs => deliver vs stack store
    | e => ⟨.exit e, stack, store⟩
where
  /-- Closes a value on the way out of its block. -/
  closeValue (c : Value) (e : Exit) (stack : List Frame) (store : Store) : Config :=
    let error := match e with
      | .raise v => v
      | _ => .nil
    match store.metamethod c Event.close with
    | .nil => ⟨match e with
        | .done vs => .deliver vs
        | e => .exit e, stack, store⟩
    | f => callBack f [c, error] none (.exits e store.depth :: stack) store

def leave (e : Exit) (frame : Frame) (stack : List Frame) (store : Store) : Config :=
  match frame, e with
  | .activation _ caller, .returns vs => deliver vs stack { store with depth := caller }
  | .after _ block env, .goto l =>
    match labelled l block with
    | some (rest, depth) =>
      ⟨.exec rest block { env with slots := env.slots.drop (env.slots.length - depth) }, stack,
        store⟩
    | none => ⟨.exit e, stack, store⟩
  | .whileBody .., .breakLoop | .untilBody .., .breakLoop | .countBody .., .breakLoop
  | .eachBody .., .breakLoop => deliver [] stack store
  | .protect handler _ caller, .raise v =>
    let store := { store with depth := caller }
    match handler with
    | none => deliver [.boolean false, v] stack store
    | some h => callBack h [v] none (.handling caller :: stack) store
  | .handling caller, .raise _ =>
    deliver [.boolean false, Fault.errorInHandler.value none] stack { store with depth := caller }
  | .coroutine t mode site resumer caller, .raise v =>
    let store :=
      { store with heap := store.heap.setThread t .dead, running := resumer, depth := caller }
    match mode, v with
    | .flagged, v => deliver [.boolean false, v] stack store
    | .plain, .string s => raise (located site s) stack store
    | .plain, v => raise v stack store
  | .closes c, e => receive.closeValue c e stack store
  | _, e => ⟨.exit e, stack, store⟩

def step (c : Config) : Next :=
  let ⟨control, stack, store⟩ := c
  match control with
  | .eval e env => .more (eval e env stack store)
  | .exec rest block env => .more (exec rest block env stack store)
  | .apply f args site => apply f args site stack store
  | .deliver vs =>
    match stack with
    | [] => .finished vs store
    | f :: stack => .more (receive vs f stack store)
  | .exit e =>
    match stack, e with
    | [], .raise v => .failed v store
    | [], .returns vs => .finished vs store
    | [], .done vs => .finished vs store
    | [], _ => .finished [] store
    | f :: stack, e => .more (leave e f stack store)

end Machine

end Pagewright.Script
