import Stencil.Lua.Builtin
import Stencil.Lua.Numeral
import Stencil.Lua.Bytes
import Stencil.Lua.Failure
set_option autoImplicit false

/-!
# Values of Lua

Values are data or names of things in a machine: two tables are the same if their names are.

## Main definitions

* `Stencil.Lua.Value` — the values.
* `Stencil.Lua.Value.rawEq` — when two values are the same.
* `Stencil.Lua.Number.lt`, `le` — the exact order of integers and floats.
* `Stencil.Lua.Value.typeName`, `text` — a value described.
-/

namespace Stencil.Lua

open Stencil.Number

/-- **The values.** -/
inductive Value where
  | nil
  | bool (b : Bool)
  | number (n : Number)
  | string (b : Bytes)
  | table (name : Nat)
  /-- A function of a program. -/
  | closure (name : Nat)
  /-- A function of a library. -/
  | builtin (f : Builtin)
  /-- The function that asks the host for content. -/
  | inclusion (name : Nat)
  /-- The function that finds one match after another. -/
  | matcher (name : Nat)
  /-- An error of the host or of a call into it. -/
  | failure (f : Failure)

namespace Number

/-! ## Equality and order -/

/-- Whether an integer and a float are equal. -/
def eqIntFloat (n : Int64) (x : Float) : Bool := exactInt? x == some n.toInt

/-- **Equality of numbers,** by their exact values. -/
def beq : Number → Number → Bool
  | int m, int n => m == n
  | float x, float y => x == y
  | int n, float x | float x, int n => eqIntFloat n x

/-- Whether an integer is below a float. -/
def ltIntFloat (n : Int64) (x : Float) : Bool :=
  match floorInt? x, exactInt? x with
  | some _, some w => n.toInt < w
  | some w, none => n.toInt ≤ w
  | none, _ => 0.0 < x

/-- Whether an integer is at or below a float. -/
def leIntFloat (n : Int64) (x : Float) : Bool :=
  match floorInt? x with
  | some w => n.toInt ≤ w
  | none => 0.0 < x

/-- Whether a float is below an integer. -/
def ltFloatInt (x : Float) (n : Int64) : Bool :=
  match floorInt? x with
  | some w => w < n.toInt
  | none => x < 0.0

/-- Whether a float is at or below an integer. -/
def leFloatInt (x : Float) (n : Int64) : Bool :=
  match floorInt? x, exactInt? x with
  | some _, some w => w ≤ n.toInt
  | some w, none => w < n.toInt
  | none, _ => x < 0.0

/-- **The order of numbers,** by their exact values. -/
def lt : Number → Number → Bool
  | int m, int n => m < n
  | float x, float y => x < y
  | int n, float x => ltIntFloat n x
  | float x, int n => ltFloatInt x n

/-- Whether a number is at or below another. -/
def le : Number → Number → Bool
  | int m, int n => m ≤ n
  | float x, float y => x ≤ y
  | int n, float x => leIntFloat n x
  | float x, int n => leFloatInt x n

end Number

namespace Value

/-- The integer as a value. -/
def int (n : Int64) : Value := .number (.int n)

/-- The float as a value. -/
def float (x : Float) : Value := .number (.float x)

/-- The natural number as a value. -/
def nat (n : Nat) : Value := .int (Int64.ofNat n)

/-- The text as a value. -/
def text (s : String) : Value := .string (Bytes.ofText s)

/-- Whether a value counts as true: all do but `nil` and `false`. -/
def truth : Value → Bool
  | nil | bool false => false
  | _ => true

/-- Whether a value is `nil`. -/
def isNil : Value → Bool
  | nil => true
  | _ => false

/-- Whether a value is a function. -/
def isFunction : Value → Bool
  | closure _ | builtin _ | inclusion _ | matcher _ => true
  | _ => false

/-- **When two values are the same.** -/
def rawEq : Value → Value → Bool
  | nil, nil => true
  | bool a, bool b => a == b
  | number m, number n => m.beq n
  | string a, string b => a == b
  | table a, table b => a == b
  | closure a, closure b => a == b
  | builtin a, builtin b => a == b
  | inclusion a, inclusion b => a == b
  | matcher a, matcher b => a == b
  | failure a, failure b => a == b
  | _, _ => false

/-- The name of the type of a value. -/
def typeName : Value → String
  | nil => "nil"
  | bool _ => "boolean"
  | number _ => "number"
  | string _ => "string"
  | table _ => "table"
  | closure _ | builtin _ | inclusion _ | matcher _ => "function"
  | failure _ => "userdata"

/-- An address, which tells things of one kind apart. -/
def address (kind : String) (n : Nat) : Bytes :=
  Bytes.ofText (kind ++ ": 0x") ++
    Bytes.ofChars (zeroFill 14 (Nat.toDigits 16 (0x1000 + 16 * n)))

/-- **A value as a string,** as the function `tostring` gives it. -/
def display : Value → Bytes
  | nil => Bytes.ofText "nil"
  | bool b => Bytes.ofText (if b then "true" else "false")
  | number n => Bytes.ofChars n.text
  | string b => b
  | table n => address "table" n
  | closure n => address "function" n
  | builtin f => Bytes.ofText ("function: builtin: " ++ f.name)
  | inclusion n => address "function" n
  | matcher n => address "function" n
  | failure f => Bytes.ofText f.text

/-- The bytes of a string or of the text of a number. -/
def bytes? : Value → Option Bytes
  | string b => some b
  | number n => some (Bytes.ofChars n.text)
  | _ => none

/-- The number that a value is or that a string spells. -/
def number? : Value → Option Number
  | number n => some n
  | string b => Number.ofNumeral? (Bytes.numbered b)
  | _ => none

end Value

end Stencil.Lua
