/-! Why a source is no script. -/
namespace Pagewright.Script

inductive SourceFault where
  | malformedNumber
  | unfinishedString
  | unfinishedLongString
  | unfinishedComment
  | invalidLongBracket
  | invalidEscape
  | unexpected
  | expected (what : String)
  /-- Statements or expressions are nested too deeply. -/
  | tooDeep
  | assignsConstant (name : String)
  | unknownAttribute (name : String)
  | extraOutsideVariadic
  | breakOutsideLoop
  | labelRepeated (name : String)
  | labelMissing (name : String)
  | jumpIntoScope (name : String)
  | tooManyLocals
  /-- No place is left for a value that waits for others. -/
  | tooManyValues
  /-- Compiled code, which is never accepted. -/
  | binary
deriving DecidableEq, Repr

structure SourceError where
  line : Nat
  fault : SourceFault
deriving DecidableEq, Repr

def SourceFault.message : SourceFault → String
  | malformedNumber => "malformed number"
  | unfinishedString => "unfinished string"
  | unfinishedLongString => "unfinished long string"
  | unfinishedComment => "unfinished long comment"
  | invalidLongBracket => "invalid long string delimiter"
  | invalidEscape => "invalid escape sequence"
  | unexpected => "unexpected symbol"
  | expected what => what ++ " expected"
  | tooDeep => "C stack overflow"
  | assignsConstant name => "attempt to assign to const variable '" ++ name ++ "'"
  | unknownAttribute name => "unknown attribute '" ++ name ++ "'"
  | extraOutsideVariadic => "cannot use '...' outside a vararg function"
  | breakOutsideLoop => "break outside a loop"
  | labelRepeated name => "label '" ++ name ++ "' already defined"
  | labelMissing name => "no visible label '" ++ name ++ "' for goto"
  | jumpIntoScope name => "<goto " ++ name ++ "> jumps into the scope of a local"
  | tooManyLocals => "too many local variables"
  | tooManyValues => "function or expression needs too many registers"
  | binary => "bad binary format (truncated chunk)"

end Pagewright.Script
