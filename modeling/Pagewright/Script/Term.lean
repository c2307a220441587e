import Pagewright.Script.Value

/-!
Scripts after reading. A local variable is its distance from the innermost one in scope, counted
through the enclosing functions; a global is a field of the variable that holds the environment.
-/
namespace Pagewright.Script

inductive UnaryOp where
  | negate | not | length | complement
deriving DecidableEq, Repr

inductive ArithOp where
  | add | sub | mul | div | floorDiv | mod | pow
deriving DecidableEq, Repr

inductive BitOp where
  | and | or | xor | left | right
deriving DecidableEq, Repr

inductive CompareOp where
  | equal | unequal | less | lessEqual | greater | greaterEqual
deriving DecidableEq, Repr

inductive BinaryOp where
  | arith (op : ArithOp)
  | bits (op : BitOp)
  | concat
  | compare (op : CompareOp)
deriving DecidableEq, Repr

mutual

inductive Expr where
  /-- A value that needs no evaluation. -/
  | constant (l : Literal)
  /-- The extra arguments of the function. -/
  | extra
  | variable (slot : Nat)
  | index (object key : Expr) (line : Nat)
  | call (function : Expr) (arguments : List Expr) (line : Nat)
  /-- A call of a field of the object with the object as first argument. -/
  | method (object : Expr) (name : Bytes) (arguments : List Expr) (line : Nat)
  | function (f : Function)
  | unary (op : UnaryOp) (operand : Expr) (line : Nat)
  | binary (op : BinaryOp) (left right : Expr) (line : Nat)
  | both (left right : Expr)
  | either (left right : Expr)
  /-- A table: how many places its list and its other keys need, and what goes in. -/
  | table (list others : Nat) (fields : List Field) (line : Nat)
  /-- In parentheses: one value of however many. -/
  | first (e : Expr)

inductive Field where
  | item (value : Expr)
  | keyed (key value : Expr)

inductive Stmt where
  /-- A call for its effects. -/
  | call (e : Expr)
  /-- New locals, given the values; the one at `closes` is closed when the block is left. -/
  | locals (count : Nat) (closes : Option Nat) (values : List Expr) (line : Nat)
  | localFunction (f : Function)
  | assign (targets values : List Expr)
  | block (body : List Stmt)
  | whileLoop (condition : Expr) (body : List Stmt)
  /-- Runs the body again and again; `exitWhen` at its end decides when to stop. -/
  | untilLoop (body : List Stmt)
  | exitWhen (condition : Expr)
  | branch (condition : Expr) (yes no : List Stmt)
  | countLoop (start limit : Expr) (step : Option Expr) (body : List Stmt) (line : Nat)
  | eachLoop (names : Nat) (iterator : List Expr) (body : List Stmt) (line : Nat)
  | returns (values : List Expr)
  | breakLoop
  | goto (label : Bytes) (line : Nat)
  /-- A label, with the number of locals in scope after it. -/
  | label (name : Bytes) (depth : Nat)

/-- A function: how many named parameters it has, whether it takes extra arguments, and its body. -/
inductive Function where
  | mk (parameters : Nat) (variadic : Bool) (body : List Stmt)

end

instance : Inhabited Expr := ⟨.constant .nil⟩
instance : Inhabited Stmt := ⟨.breakLoop⟩
instance : Inhabited Function := ⟨.mk 0 false []⟩

namespace Function

def parameters : Function → Nat
  | mk n _ _ => n

def variadic : Function → Bool
  | mk _ b _ => b

def body : Function → List Stmt
  | mk _ _ b => b

end Function

def Expr.isOpen : Expr → Bool
  | .extra | .call .. | .method .. => true
  | _ => false

end Pagewright.Script
