import Pagewright.Script.Library.Basic
import Pagewright.Script.Library.Coroutines
import Pagewright.Script.Library.Math
import Pagewright.Script.Library.Strings
import Pagewright.Script.Library.Tables
import Pagewright.Script.Library.Utf8

/-! The library as a whole: its calls, and the globals that a script finds. -/
namespace Pagewright.Script.Library

def call (callback : Callback) (f : Builtin) (args : List Value) : Eval (List Value) :=
  match f with
  | .basic f => basic callback f args
  | .string f => string callback f args
  | .table f => table callback f args
  | .math f => math callback f args
  | .coroutine f => coroutine callback f args
  | .utf8 f => utf8 f args
  | .control f => Eval.fault (.call (Builtin.control f).name)

def withFields (t : Table) (fields : List (String × Value)) : Table :=
  fields.foldl (fun t p => t.set (Value.ofText p.1) p.2) t

def tableOf (functions : List (String × Builtin)) (constants : List (String × Value)) : Table :=
  let functions := functions.map fun (p : String × Builtin) => (p.1, Value.builtin p.2)
  withFields Table.empty (functions ++ constants)

def mathConstants : List (String × Value) :=
  [("huge", .float .infinity), ("maxinteger", .integer Int64.maxValue),
   ("mininteger", .integer Int64.minValue), ("pi", .float ⟨0x400921fb54442d18⟩)]

def characterPattern : Bytes :=
  Bytes.ofText "[\x00-\x7f" ++ [0xc2, 45, 0xfd] ++ Bytes.ofText "][" ++ [0x80, 45, 0xbf]
    ++ Bytes.ofText "]*"

/-- The heap that scripts start from: the globals at 0, the library tables, the metatable of strings
last. -/
def heap (more : List (String × Value)) : Heap :=
  let libraries : List (String × Table) :=
    [("string", tableOf Builtin.stringLibrary []), ("table", tableOf Builtin.tableLibrary []),
     ("math", tableOf Builtin.mathLibrary mathConstants),
     ("coroutine", tableOf Builtin.coroutineLibrary []),
     ("utf8", tableOf Builtin.utf8Library [("charpattern", .string characterPattern)])]
  let tables := (libraries.zipIdx 1).map fun ((n, _), i) => (n, Value.table i)
  let globals := tableOf Builtin.globals
    (("_G", .table 0) :: ("_VERSION", Value.ofText "Lua 5.4") :: tables)
  let globals := withFields globals more
  let strings := Table.empty.set (.string Event.index) (.table 1)
  { cells := #[]
    tables := (globals :: libraries.map (·.2) ++ [strings]).toArray
    closures := #[]
    threads := #[.running]
    generators := #[] }

def stringMeta : Nat := 6

end Pagewright.Script.Library
