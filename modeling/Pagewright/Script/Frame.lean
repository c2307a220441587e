import Pagewright.Script.Term

/-!
What the machine still has to do: frames, each waiting for the values of what runs above it.
-/
namespace Pagewright.Script

structure Site where
  chunk : Bytes
  line : Nat
deriving DecidableEq, Repr

structure Env where
  /-- The cells of the locals, the innermost first. -/
  slots : List Nat
  /-- The extra arguments of the function. -/
  extra : List Value
  /-- The name of the source. -/
  chunk : Bytes
deriving DecidableEq, Repr

def Env.site (env : Env) (line : Nat) : Site := ⟨env.chunk, line⟩

/-- How deep calls are nested: of script functions, and of library functions that call back. -/
structure Depth where
  scripts : Nat
  library : Nat
deriving DecidableEq, Repr

inductive Place where
  | cell (ref : Nat)
  | field (object key : Value) (line : Nat)
deriving DecidableEq, Repr

/-- A new table whose fields are still coming. The items of its list are stored some at a time, after
the keyed fields between them. -/
structure Construction where
  table : Nat
  /-- How many items are stored. -/
  stored : Nat
  /-- The items that are not, last first. -/
  waiting : List Value
deriving DecidableEq, Repr

inductive Counter where
  /-- The value now, how many rounds follow, and the step. -/
  | integers (now : Int64) (rounds : Nat) (step : Int64)
  | floats (now limit step : Double)
deriving DecidableEq, Repr

inductive Exit where
  /-- Out of the function with values. -/
  | returns (vs : List Value)
  /-- Out of the innermost loop. -/
  | breakLoop
  | goto (label : Bytes)
  | raise (v : Value)
  /-- On with values, as if nothing had happened. -/
  | done (vs : List Value)
deriving DecidableEq, Repr

inductive ResumeMode where
  /-- Results follow a flag, errors follow its negation. -/
  | flagged
  /-- Results as they are; errors go on. -/
  | plain
deriving DecidableEq, Repr

inductive Frame where
  /-- The values of a list of expressions, last first, and the expressions to come. -/
  | items (rest : List Expr) (done : List Value) (env : Env)
  /-- The function of a call, whose arguments come next. -/
  | callee (arguments : List Expr) (env : Env) (line : Nat) (tail : Bool)
  /-- The arguments of a call, after some that are known. -/
  | arguments (function : Value) (before : List Value) (site : Site) (tail : Bool)
  /-- The object of a method call. -/
  | receiver (name : Bytes) (arguments : List Expr) (env : Env) (line : Nat) (tail : Bool)
  /-- The function found in the object of a method call. -/
  | found (object : Value) (arguments : List Expr) (env : Env) (line : Nat) (tail : Bool)
  /-- One value of however many. -/
  | first
  | unary (op : UnaryOp) (site : Site)
  | left (op : BinaryOp) (right : Expr) (env : Env) (line : Nat)
  | right (op : BinaryOp) (left : Value) (site : Site)
  | both (right : Expr) (env : Env)
  | either (right : Expr) (env : Env)
  /-- The result of a comparison by a metamethod, as a truth value. -/
  | verdict (negated : Bool)
  | object (key : Expr) (env : Env) (line : Nat)
  | key (object : Value) (site : Site)
  /-- A value for the list of a new table. -/
  | item (into : Construction) (rest : List Field) (env : Env) (site : Site)
  /-- All values of the last item of a new table. -/
  | spread (into : Construction)
  | fieldKey (into : Construction) (value : Expr) (rest : List Field) (env : Env) (site : Site)
  | fieldValue (into : Construction) (key : Value) (rest : List Field) (env : Env) (site : Site)
  /-- The statements after one that is running, in their block. -/
  | after (rest block : List Stmt) (env : Env)
  | locals (count : Nat) (closes : Option Nat) (rest block : List Stmt) (env : Env) (site : Site)
  /-- The object of a field to assign to. -/
  | targetObject (key : Expr) (line : Nat) (targets : List Expr) (places : List Place)
      (values : List Expr) (env : Env)
  | targetKey (object : Value) (line : Nat) (targets : List Expr) (places : List Place)
      (values : List Expr) (env : Env)
  /-- The values to assign to places, the last place first. -/
  | assigned (places : List Place) (chunk : Bytes)
  /-- Assignments left to do. -/
  | assigning (left : List (Place × Value)) (chunk : Bytes)
  | branch (yes no : List Stmt) (env : Env)
  | whileTest (condition : Expr) (body : List Stmt) (env : Env)
  | whileBody (condition : Expr) (body : List Stmt) (env : Env)
  | untilBody (body : List Stmt) (env : Env)
  | exitTest
  /-- Start, limit and step of a counting loop. -/
  | countRange (body : List Stmt) (env : Env) (site : Site)
  | countBody (counter : Counter) (body : List Stmt) (env : Env)
  /-- The iterator of a loop, its state and its first control value. -/
  | eachRange (names : Nat) (body : List Stmt) (env : Env) (site : Site)
  | eachStep (iterator state : Value) (names : Nat) (body : List Stmt) (env : Env) (site : Site)
  | eachBody (iterator state control : Value) (names : Nat) (body : List Stmt) (env : Env)
      (site : Site)
  /-- The values that a return statement gives. -/
  | returning
  /-- A call of a script function, from a site if a script made it. -/
  | activation (site : Option Site) (caller : Depth)
  /-- A call by the machine on behalf of an operation. -/
  | boundary (caller : Depth)
  /-- A call whose errors are caught, and whether a handler is to see them first. -/
  | protect (handler : Option Value) (site : Option Site) (caller : Depth)
  /-- A handler at work. -/
  | handling (caller : Depth)
  /-- Where a coroutine was resumed, and which one had been running. -/
  | coroutine (thread : Nat) (mode : ResumeMode) (site : Option Site) (resumer : Option Nat)
      (caller : Depth)
  /-- A value to close when its block is left. -/
  | closes (v : Value)
  /-- The way out that goes on when a value is closed. -/
  | exits (e : Exit) (caller : Depth)

inductive Thread where
  /-- Not started: the function it is to run. -/
  | fresh (function : Value)
  /-- Waiting in a yield. -/
  | suspended (frames : List Frame) (scripts : Nat)
  | running
  | dead

instance : Inhabited Thread := ⟨.dead⟩

end Pagewright.Script
