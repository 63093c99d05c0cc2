import Stencil.Lua.Library.Mathematics
import Stencil.Lua.Library.Strings
import Stencil.Lua.Library.Tables
import Stencil.Lua.Library.Unicode
set_option autoImplicit false

/-!
# The libraries

The globals that a program finds: the base library, and a table for each other one. What would
reach outside the program is not among them, except under names that cannot be called.

## Main definitions

* `Stencil.Lua.Builtin.run` — a call of a library function.
* `Stencil.Lua.Machine.fresh` — a machine with the globals of a new program.
-/

namespace Stencil.Lua

/-- **A call of a library function.** -/
def Builtin.run (call : Caller) (trace : Trace) (f : Builtin) (args : Arguments) :
    Run Arguments :=
  match f with
  | .base f => f.run call trace args
  | .string f => f.run call trace args
  | .table f => f.run call trace args
  | .math f => f.run trace args
  | .utf8 f => f.run trace args
  | .absent name => Run.fail trace s!"'{name}' is not available"

/-! ## Globals -/

/-- The entry of a table for a function, under its name. -/
def functionEntry (f : Builtin) : Value × Value := (.text f.name, .builtin f)

/-- The functions on strings, and those that cannot be called. -/
def stringEntries : List (Value × Value) :=
  ([.byte, .char, .find, .format, .gmatch, .gsub, .len, .lower, .«match», .rep, .reverse, .sub,
    .upper].map fun f => functionEntry (.string f)) ++
  (["dump", "pack", "packsize", "unpack"].map fun name => functionEntry (.absent name))

/-- The functions on tables. -/
def tableEntries : List (Value × Value) :=
  [.concat, .insert, .move, .pack, .remove, .sort, .unpack].map fun f =>
    functionEntry (.table f)

/-- The functions on numbers, some numbers, and functions that cannot be called. -/
def mathEntries : List (Value × Value) :=
  ([.abs, .acos, .asin, .atan, .ceil, .cos, .cosh, .deg, .exp, .floor, .fmod, .log, .log10, .max,
    .min, .modf, .pow, .rad, .sin, .sinh, .sqrt, .tan, .tanh, .tointeger, .type,
    .ult].map fun f => functionEntry (.math f)) ++
  (["frexp", "ldexp", "random", "randomseed"].map fun name => functionEntry (.absent name)) ++
  [(.text "pi", .float circleRatio), (.text "huge", .float (1.0 / 0.0)),
   (.text "maxinteger", .int Int64.maxValue), (.text "mininteger", .int Int64.minValue)]

/-- The pattern of one character in UTF-8. -/
def characterPattern : Bytes :=
  [0x5B, 0x00, 0x2D, 0x7F, 0xC2, 0x2D, 0xFD, 0x5D, 0x5B, 0x80, 0x2D, 0xBF, 0x5D, 0x2A]

/-- The functions on texts, and the pattern of a character. -/
def utf8Entries : List (Value × Value) :=
  ([.char, .codepoint, .codes, .len, .offset].map fun f => functionEntry (.utf8 f)) ++
  [(.text "charpattern", .string characterPattern)]

/-- The functions of the base library, and those that cannot be called. -/
def baseEntries : List (Value × Value) :=
  ([.assert, .error, .ipairs, .next, .pairs, .pcall, .rawequal, .rawget, .rawlen, .rawset,
    .select, .tonumber, .tostring, .type, .xpcall].map fun f => functionEntry (.base f)) ++
  (["collectgarbage", "getmetatable", "print", "setmetatable", "warn"].map fun name =>
    functionEntry (.absent name))

/-- The name of the table of globals. -/
def globalTable : Nat := 0

/-- The globals, with the tables of the libraries under the names that they have in a fresh
machine. -/
def globalEntries : List (Value × Value) :=
  baseEntries ++
  [(.text "_G", .table globalTable), (.text "_VERSION", .text "Lua 5.4"),
   (.text "string", .table 1), (.text "table", .table 2), (.text "math", .table 3),
   (.text "utf8", .table 4)]

/-- **A machine with the globals of a new program.** -/
def Machine.fresh : Machine :=
  { tables :=
      #[{ entries := globalEntries }, { entries := stringEntries }, { entries := tableEntries },
        { entries := mathEntries }, { entries := utf8Entries }]
    strings := 1 }

end Stencil.Lua
