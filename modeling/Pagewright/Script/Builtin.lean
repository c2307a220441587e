/-!
The functions a script finds in its globals, one enumeration for each library table, and the names
they go by. They are those that depend on their arguments and the heap alone. What asks or changes the
system is left out (`io`, `os`, `package`, `require`, `dofile`, `loadfile`, `warn`), and so are random
numbers, trigonometry and binary formats (`string.pack`, `string.dump` and what belongs to them). Memory
is not counted, so `collectgarbage` always gives 0.
-/
namespace Pagewright.Script

/-- The functions that act on the machine itself: they raise and catch errors, and change from one
coroutine to another. -/
inductive ControlFunction where
  | error | pcall | resume | xpcall | yield
deriving DecidableEq, Repr

/-- The other functions that are globals themselves. `ipairsStep` is what `ipairs` gives as the
iterator. -/
inductive BasicFunction where
  | assert | collectgarbage | getmetatable | ipairs | ipairsStep | load | next | pairs | print
  | rawequal | rawget | rawlen | rawset | select | setmetatable | tonumber | tostring | type
deriving DecidableEq, Repr

inductive StringFunction where
  | byte | char | find | format | gmatch | gsub | len | lower | «match» | rep | reverse | sub
  | upper
deriving DecidableEq, Repr

inductive TableFunction where
  | concat | insert | move | pack | remove | sort | unpack
deriving DecidableEq, Repr

inductive MathFunction where
  | abs | ceil | exp | floor | fmod | log | max | min | modf | sqrt | tointeger | type | ult
deriving DecidableEq, Repr

inductive CoroutineFunction where
  | close | create | isyieldable | running | status | wrap
deriving DecidableEq, Repr

/-- `codesStep` is what `codes` gives as the iterator. -/
inductive Utf8Function where
  | char | codepoint | codes | codesStep | len | offset
deriving DecidableEq, Repr

inductive Builtin where
  | control (f : ControlFunction)
  | basic (f : BasicFunction)
  | string (f : StringFunction)
  | table (f : TableFunction)
  | math (f : MathFunction)
  | coroutine (f : CoroutineFunction)
  | utf8 (f : Utf8Function)
deriving DecidableEq, Repr

namespace Builtin

def globals : List (String × Builtin) :=
  [("assert", .basic .assert), ("collectgarbage", .basic .collectgarbage),
   ("error", .control .error), ("getmetatable", .basic .getmetatable), ("ipairs", .basic .ipairs),
   ("load", .basic .load), ("next", .basic .next), ("pairs", .basic .pairs),
   ("pcall", .control .pcall), ("print", .basic .print), ("rawequal", .basic .rawequal),
   ("rawget", .basic .rawget), ("rawlen", .basic .rawlen), ("rawset", .basic .rawset),
   ("select", .basic .select), ("setmetatable", .basic .setmetatable),
   ("tonumber", .basic .tonumber), ("tostring", .basic .tostring), ("type", .basic .type),
   ("xpcall", .control .xpcall)]

def stringLibrary : List (String × Builtin) :=
  [("byte", .string .byte), ("char", .string .char), ("find", .string .find),
   ("format", .string .format), ("gmatch", .string .gmatch), ("gsub", .string .gsub),
   ("len", .string .len), ("lower", .string .lower), ("match", .string .match),
   ("rep", .string .rep), ("reverse", .string .reverse), ("sub", .string .sub),
   ("upper", .string .upper)]

def tableLibrary : List (String × Builtin) :=
  [("concat", .table .concat), ("insert", .table .insert), ("move", .table .move),
   ("pack", .table .pack), ("remove", .table .remove), ("sort", .table .sort),
   ("unpack", .table .unpack)]

def mathLibrary : List (String × Builtin) :=
  [("abs", .math .abs), ("ceil", .math .ceil), ("exp", .math .exp), ("floor", .math .floor),
   ("fmod", .math .fmod), ("log", .math .log), ("max", .math .max), ("min", .math .min),
   ("modf", .math .modf), ("sqrt", .math .sqrt), ("tointeger", .math .tointeger),
   ("type", .math .type), ("ult", .math .ult)]

def coroutineLibrary : List (String × Builtin) :=
  [("close", .coroutine .close), ("create", .coroutine .create),
   ("isyieldable", .coroutine .isyieldable), ("resume", .control .resume),
   ("running", .coroutine .running), ("status", .coroutine .status), ("wrap", .coroutine .wrap),
   ("yield", .control .yield)]

def utf8Library : List (String × Builtin) :=
  [("char", .utf8 .char), ("codepoint", .utf8 .codepoint), ("codes", .utf8 .codes),
   ("len", .utf8 .len), ("offset", .utf8 .offset)]

def name (f : Builtin) : String :=
  match (globals ++ stringLibrary ++ tableLibrary ++ mathLibrary ++ coroutineLibrary
      ++ utf8Library).find? fun (_, g) => g = f with
  | some (n, _) => n
  | none => "for iterator"

end Builtin

end Pagewright.Script
