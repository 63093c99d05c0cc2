import Stencil.Lua.Argument
import Stencil.Lua.Operator
set_option autoImplicit false

/-!
# Functions on numbers

## Main definitions

* `Stencil.Lua.MathFunction.run` — the functions.
-/

namespace Stencil.Lua

open Stencil.Number

/-- The ratio of a circle to its diameter. -/
def circleRatio : Float := 3.141592653589793

/-- A float made an integer where it has 64 bits, and kept otherwise. -/
def wholeNumber (x : Float) : Number :=
  match (exactInt? x).bind Number.ofInt? with
  | some n => .int n
  | none => .float x

/-- The greatest or the least of some numbers: of two, the second if it is better. -/
def best (better : Number → Number → Bool) (args : Arguments) : Except Objection Number := do
  let first ← args.number 1
  let rest ← (List.range (args.length - 1)).mapM fun i => args.number (i + 2)
  return rest.foldl (fun a b => if better b a then b else a) first

/-- A number made whole. -/
def rounded (round : Float → Float) : Number → Number
  | .int n => .int n
  | .float x => wholeNumber (round x)

/-- The remainder of a division that drops the fraction. -/
def truncatedRemainder (args : Arguments) : Except Objection Number := do
  match ← args.number 1, ← args.number 2 with
  | .int a, .int b =>
    if b = 0 then .error (.argument 2 "zero")
    else return .int (Int64.ofInt (a.toInt.tmod b.toInt))
  | m, n => return .float (remainder m.toFloat n.toFloat)

/-- A number towards zero, and its fraction. -/
def wholeAndFraction : Number → Arguments
  | .int n => [.float (Number.int n).toFloat, .float 0.0]
  | .float x =>
    let whole := if x < 0.0 then x.ceil else x.floor
    [.float whole, .float (if whole == x then 0.0 else x - whole)]

/-- A logarithm, to a base if one is given. -/
def logarithm (args : Arguments) : Except Objection Float := do
  let x ← args.float 1
  if args.isMissing 2 then return x.log
  else
    let base ← args.float 2
    if base == 2.0 then return x.log2
    else if base == 10.0 then return x.log10
    else return x.log / base.log

/-- **The functions on numbers.** -/
def MathFunction.apply (f : MathFunction) (args : Arguments) : Except Objection Arguments :=
  let real (g : Float → Float) : Except Objection Arguments :=
    (args.float 1).map fun x => [.float (g x)]
  match f with
  | .abs => (args.number 1).map fun n => match n with
    | .int n => [.int (if n < 0 then -n else n)]
    | .float x => [.float x.abs]
  | .acos => real Float.acos
  | .asin => real Float.asin
  | .atan => do
    let y ← args.float 1
    let x ← if args.isMissing 2 then .ok 1.0 else args.float 2
    return [.float (y.atan2 x)]
  | .ceil => (args.number 1).map fun n => [.number (rounded Float.ceil n)]
  | .cos => real Float.cos
  | .cosh => real Float.cosh
  | .deg => real fun x => x * (180.0 / circleRatio)
  | .exp => real Float.exp
  | .floor => (args.number 1).map fun n => [.number (rounded Float.floor n)]
  | .fmod => (truncatedRemainder args).map fun n => [.number n]
  | .log => (logarithm args).map fun x => [.float x]
  | .log10 => real Float.log10
  | .max => (best (fun a b => b.lt a) args).map fun n => [.number n]
  | .min => (best Number.lt args).map fun n => [.number n]
  | .modf => (args.number 1).map wholeAndFraction
  | .pow => do return [.float ((← args.float 1).pow (← args.float 2))]
  | .rad => real fun x => x * (circleRatio / 180.0)
  | .sin => real Float.sin
  | .sinh => real Float.sinh
  | .sqrt => real Float.sqrt
  | .tan => real Float.tan
  | .tanh => real Float.tanh
  | .tointeger => do
    let v ← args.any 1
    return [((v.number?.bind Number.toInteger?).map .int).getD .nil]
  | .type => (args.any 1).map fun v => match v with
    | .number (.int _) => [.text "integer"]
    | .number (.float _) => [.text "float"]
    | _ => [.nil]
  | .ult => do
    let a ← args.integer 1
    let b ← args.integer 2
    return [.bool (a % UInt64.size < b % UInt64.size)]

/-- The functions on numbers, as actions. -/
def MathFunction.run (trace : Trace) (f : MathFunction) (args : Arguments) : Run Arguments :=
  Run.check trace f.name (f.apply args)

end Stencil.Lua
