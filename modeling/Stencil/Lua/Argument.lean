import Stencil.Lua.Machine
set_option autoImplicit false

/-!
# Arguments of library functions

Functions of the libraries check what they are given. Numbers and strings are taken for each
other where the one spells the other.

## Main definitions

* `Stencil.Lua.Objection` — why a function does not accept its arguments.
* `Stencil.Lua.Arguments` — the arguments, with a reading for each kind.
* `Stencil.Lua.Site`, `Trace` — where an action is in a program, and the calls around it.
* `Stencil.Lua.Run.fail`, `check` — errors with the place of the innermost call.
-/

namespace Stencil.Lua

/-- **Why a function does not accept its arguments.** -/
inductive Objection where
  | argument (number : Nat) (reason : String)
  | other (message : String)
  deriving DecidableEq, Repr

/-- The text of an objection of a function. -/
def Objection.message (function : String) : Objection → String
  | argument number reason => s!"bad argument #{number} to '{function}' ({reason})"
  | other message => message

/-- **The arguments of a call.** They are counted from one on. -/
abbrev Arguments := List Value

namespace Arguments

/-- The argument of a number; `nil` if there is none. -/
def value (args : Arguments) (n : Nat) : Value := args.getD (n - 1) .nil

/-- Whether an argument is missing or `nil`. -/
def isMissing (args : Arguments) (n : Nat) : Bool := (args.value n).isNil

/-- The objection to an argument of the wrong type. -/
def expected (args : Arguments) (n : Nat) (type : String) : Objection :=
  let given := match args[n - 1]? with
    | some v => v.typeName
    | none => "no value"
  .argument n s!"{type} expected, got {given}"

/-- An argument that must be there. -/
def any (args : Arguments) (n : Nat) : Except Objection Value :=
  match args[n - 1]? with
  | some v => .ok v
  | none => .error (.argument n "value expected")

/-- A table. -/
def table (args : Arguments) (n : Nat) : Except Objection Nat :=
  match args.value n with
  | .table t => .ok t
  | _ => .error (args.expected n "table")

/-- A function. -/
def function (args : Arguments) (n : Nat) : Except Objection Value :=
  if (args.value n).isFunction then .ok (args.value n) else .error (args.expected n "function")

/-- A number. -/
def number (args : Arguments) (n : Nat) : Except Objection Number :=
  match (args.value n).number? with
  | some m => .ok m
  | none => .error (args.expected n "number")

/-- A float. -/
def float (args : Arguments) (n : Nat) : Except Objection Float :=
  (args.number n).map Number.toFloat

/-- An integer. -/
def integer (args : Arguments) (n : Nat) : Except Objection Int := do
  match (← args.number n).toInteger? with
  | some i => .ok i.toInt
  | none => .error (.argument n "number has no integer representation")

/-- An integer, or a default for a missing one. -/
def integerOr (args : Arguments) (n : Nat) (default : Int) : Except Objection Int :=
  if args.isMissing n then .ok default else args.integer n

/-- A byte string. -/
def bytes (args : Arguments) (n : Nat) : Except Objection Bytes :=
  match (args.value n).bytes? with
  | some b => .ok b
  | none => .error (args.expected n "string")

/-- A byte string, or a default for a missing one. -/
def bytesOr (args : Arguments) (n : Nat) (default : Bytes) : Except Objection Bytes :=
  if args.isMissing n then .ok default else args.bytes n

end Arguments

/-! ## Errors of functions -/

/-- A line of a program, under the name that errors give the program. -/
structure Site where
  chunk : Bytes
  line : Nat

/-- A line as errors put it in front of their text. -/
def Site.text (s : Site) : Bytes :=
  s.chunk ++ Bytes.ofChars (':' :: (toString s.line).toList ++ [':', ' '])

/-- **The calls around an action,** innermost first: where each of them is, if it is in a program
and not in a library, how many there are, and how many of them are in libraries. -/
structure Trace where
  sites : List (Option Site)
  depth : Nat
  crossings : Nat

namespace Trace

/-- No calls. -/
def start : Trace := ⟨[], 0, 0⟩

/-- One more call, in a program. -/
def push (t : Trace) (s : Site) : Trace := ⟨some s :: t.sites, t.depth + 1, t.crossings⟩

/-- One more call, in a library. -/
def cross (t : Trace) : Trace := ⟨none :: t.sites, t.depth + 1, t.crossings + 1⟩

/-- The place of the call at a level, from one on, as errors put it in front of their text. -/
def siteText (t : Trace) (level : Nat) : Bytes :=
  match t.sites[level - 1]? with
  | some (some s) => s.text
  | _ => []

end Trace

namespace Run

variable {α : Type}

/-- Raises an error with the place of the innermost call. -/
def fail (trace : Trace) (message : String) : Run α :=
  raise (.string (trace.siteText 1 ++ Bytes.ofText message))

/-- A checked value; an objection of a function is raised as an error. -/
def check (trace : Trace) (function : String) (e : Except Objection α) : Run α :=
  match e with
  | .ok a => pure a
  | .error o => fail trace (o.message function)

/-- **The value under a key** of a table or a string; none for other values. -/
def index? (v key : Value) : Run (Option Value) := fun m =>
  match v with
  | .table n => .done (some ((m.tables.getD n {}).get key)) m
  | .string _ => .done (some ((m.tables.getD m.strings {}).get key)) m
  | _ => .done none m

end Run

/-! ## Places -/

/-- The place that a number means in a sequence of a length, from one on; negative numbers count
from the end. -/
def startPlace (length : Nat) (n : Int) : Nat :=
  if 0 < n then n.toNat
  else if n = 0 then 1
  else if n < -(length : Int) then 1
  else (length + 1 + n).toNat

/-- The last place that a number means in a sequence of a length. -/
def endPlace (length : Nat) (n : Int) : Nat :=
  if (length : Int) < n then length
  else if 0 ≤ n then n.toNat
  else if n < -(length : Int) then 0
  else (length + 1 + n).toNat

end Stencil.Lua
