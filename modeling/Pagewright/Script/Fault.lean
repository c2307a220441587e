import Pagewright.Script.Value

/-!
What goes wrong while a script runs, other than an error of its own making. A message tells which types
were at fault, and not which variable held them.
-/
namespace Pagewright.Script

inductive Fault where
  | arithmeticOn (type : String)
  | bitwiseOn (type : String)
  /-- A float with a fraction, or out of range, where an integer is needed. -/
  | noInteger
  | concatenation (type : String)
  | length (type : String)
  | comparison (left right : String)
  | call (type : String)
  | index (type : String)
  | divisionByZero
  | moduloByZero
  /-- Too many calls of script functions within each other. -/
  | stackOverflow
  /-- Too many calls of library functions within each other. -/
  | nestedCalls
  /-- Metamethods that refer to each other without end. -/
  | endlessChain (event : String)
  | nilKey
  | nanKey
  | invalidKey
  | loopValue (role : String)
  | loopStep
  | unclosable
  | badArgument (position : Nat) (function reason : String)
  | invalidOrder
  | invalidItem (position : Int)
  | tooLong
  | pattern (reason : String)
  | format (reason : String)
  | yieldOutside
  | yieldAcross
  | resumption (status : String)
  | protectedMetatable
  | tooManyResults
  | source (message : String)
  | errorInHandler
deriving DecidableEq, Repr

def Fault.message : Fault → String
  | arithmeticOn type => "attempt to perform arithmetic on a " ++ type ++ " value"
  | bitwiseOn type => "attempt to perform bitwise operation on a " ++ type ++ " value"
  | noInteger => "number has no integer representation"
  | concatenation type => "attempt to concatenate a " ++ type ++ " value"
  | length type => "attempt to get length of a " ++ type ++ " value"
  | comparison left right =>
    if left = right then "attempt to compare two " ++ left ++ " values"
    else "attempt to compare " ++ left ++ " with " ++ right
  | call type => "attempt to call a " ++ type ++ " value"
  | index type => "attempt to index a " ++ type ++ " value"
  | divisionByZero => "attempt to perform 'n//0'"
  | moduloByZero => "attempt to perform 'n%%0'"
  | stackOverflow => "stack overflow"
  | nestedCalls => "C stack overflow"
  | endlessChain event => "'" ++ event ++ "' chain too long; possibly a loop"
  | nilKey => "index is nil"
  | nanKey => "index is NaN"
  | invalidKey => "invalid key to 'next'"
  | loopValue role => "'for' " ++ role ++ " must be a number"
  | loopStep => "'for' step is zero"
  | unclosable => "variable got a non-closable value"
  | badArgument position function reason =>
    "bad argument #" ++ toString position ++ " to '" ++ function ++ "' (" ++ reason ++ ")"
  | invalidOrder => "invalid order function for sorting"
  | invalidItem position =>
    "invalid value (at index " ++ toString position ++ ") in table for 'concat'"
  | tooLong => "resulting string too large"
  | pattern reason => reason
  | format reason => reason
  | yieldOutside => "attempt to yield from outside a coroutine"
  | yieldAcross => "attempt to yield across a C-call boundary"
  | resumption status => "cannot resume " ++ status ++ " coroutine"
  | protectedMetatable => "cannot change a protected metatable"
  | tooManyResults => "too many results to unpack"
  | source message => message
  | errorInHandler => "error in error handling"

/-- Why an evaluation ends without values. -/
inductive Stop where
  /-- An error, whose value the script can see. -/
  | raised (v : Value)
  /-- A fault at a place still to be named. -/
  | fault (f : Fault)
  /-- The fuel is used up; this is no error of the script. -/
  | exhausted
deriving DecidableEq, Repr

end Pagewright.Script
