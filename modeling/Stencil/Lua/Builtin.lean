set_option autoImplicit false

/-!
# The functions of the libraries

The functions that programs find in their globals. A function that reaches outside the program,
or that changes how values behave, is there under its name and cannot be called.

## Main definitions

* `Stencil.Lua.Builtin` — the functions, by library.
* `Stencil.Lua.Builtin.name` — the name of a function in its library.
-/

namespace Stencil.Lua

/-- The functions of the base library. -/
inductive BaseFunction where
  | assert | error | ipairs | ipairsStep | next | pairs | pcall | rawequal | rawget | rawlen
  | rawset | select | tonumber | tostring | type | xpcall
  deriving DecidableEq, Repr

/-- The functions on strings. -/
inductive StringFunction where
  | byte | char | find | format | gmatch | gsub | len | lower | «match» | rep | reverse | sub
  | upper
  deriving DecidableEq, Repr

/-- The functions on tables. -/
inductive TableFunction where
  | concat | insert | move | pack | remove | sort | unpack
  deriving DecidableEq, Repr

/-- The functions on numbers. -/
inductive MathFunction where
  | abs | acos | asin | atan | ceil | cos | cosh | deg | exp | floor | fmod | log | log10 | max
  | min | modf | pow | rad | sin | sinh | sqrt | tan | tanh | tointeger | type | ult
  deriving DecidableEq, Repr

/-- The functions on texts in UTF-8. -/
inductive Utf8Function where
  | char | codepoint | codes | codesStep | len | offset
  deriving DecidableEq, Repr

/-- **The functions of the libraries.** -/
inductive Builtin where
  | base (f : BaseFunction)
  | string (f : StringFunction)
  | table (f : TableFunction)
  | math (f : MathFunction)
  | utf8 (f : Utf8Function)
  /-- A function that cannot be called. -/
  | absent (name : String)
  deriving DecidableEq, Repr

/-- The name of a function of the base library. -/
def BaseFunction.name : BaseFunction → String
  | assert => "assert"
  | error => "error"
  | ipairs => "ipairs"
  | ipairsStep => "?"
  | next => "next"
  | pairs => "pairs"
  | pcall => "pcall"
  | rawequal => "rawequal"
  | rawget => "rawget"
  | rawlen => "rawlen"
  | rawset => "rawset"
  | select => "select"
  | tonumber => "tonumber"
  | tostring => "tostring"
  | type => "type"
  | xpcall => "xpcall"

/-- The name of a function on strings. -/
def StringFunction.name : StringFunction → String
  | byte => "byte"
  | char => "char"
  | find => "find"
  | format => "format"
  | gmatch => "gmatch"
  | gsub => "gsub"
  | len => "len"
  | lower => "lower"
  | «match» => "match"
  | rep => "rep"
  | reverse => "reverse"
  | sub => "sub"
  | upper => "upper"

/-- The name of a function on tables. -/
def TableFunction.name : TableFunction → String
  | concat => "concat"
  | insert => "insert"
  | move => "move"
  | pack => "pack"
  | remove => "remove"
  | sort => "sort"
  | unpack => "unpack"

/-- The name of a function on numbers. -/
def MathFunction.name : MathFunction → String
  | abs => "abs"
  | acos => "acos"
  | asin => "asin"
  | atan => "atan"
  | ceil => "ceil"
  | cos => "cos"
  | cosh => "cosh"
  | deg => "deg"
  | exp => "exp"
  | floor => "floor"
  | fmod => "fmod"
  | log => "log"
  | log10 => "log10"
  | max => "max"
  | min => "min"
  | modf => "modf"
  | pow => "pow"
  | rad => "rad"
  | sin => "sin"
  | sinh => "sinh"
  | sqrt => "sqrt"
  | tan => "tan"
  | tanh => "tanh"
  | tointeger => "tointeger"
  | type => "type"
  | ult => "ult"

/-- The name of a function on texts. -/
def Utf8Function.name : Utf8Function → String
  | char => "char"
  | codepoint => "codepoint"
  | codes => "codes"
  | codesStep => "?"
  | len => "len"
  | offset => "offset"

/-- **The name of a function** in its library. -/
def Builtin.name : Builtin → String
  | base f => f.name
  | string f => f.name
  | table f => f.name
  | math f => f.name
  | utf8 f => f.name
  | absent name => name

end Stencil.Lua
