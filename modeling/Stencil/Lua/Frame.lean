import Stencil.Lua.Argument
import Stencil.Lua.Operator
set_option autoImplicit false

/-!
# Frames

What a running function sees: its variables, its extra arguments, and where it was called.

## Main definitions

* `Stencil.Lua.Frame` — what a running function sees.
* `Stencil.Lua.Signal` — how a statement ends.
* `Stencil.Lua.Frame.describe` — what an error says of an operand.
-/

namespace Stencil.Lua

open Stencil.Number

/-- **What a running function sees.** -/
structure Frame where
  env : Env
  varargs : Arguments
  /-- How many functions are around the code that runs, itself included. -/
  level : Nat
  /-- The name of the program, as errors give it. -/
  chunk : Bytes
  trace : Trace

/-- **How a statement ends:** the next one follows, with the variables that it sees; or the
function returns; or a loop is left; or a label is looked for. -/
inductive Signal where
  | next (env : Env)
  | returned (values : Arguments)
  | left
  | jumped (label : Ident)

/-- The variable of a name, if there is one. -/
def Env.find? (env : Env) (name : Ident) : Option Variable :=
  List.find? (fun v => v.name == name) env

namespace Frame

/-- The frame with other variables. -/
def withEnv (f : Frame) (env : Env) : Frame := { f with env }

/-- The variables of a frame with one more. -/
def bind (f : Frame) (name : Ident) (cell : Nat) : Env := ⟨name, cell, f.level⟩ :: f.env

/-- The calls around a call at a line. -/
def traceAt (f : Frame) (line : Nat) : Trace := f.trace.push ⟨f.chunk, line⟩

/-- Raises an error at a line. -/
def fail {α : Type} (f : Frame) (line : Nat) (message : String) : Run α :=
  Run.fail (f.traceAt line) message

/-- A thing named in an error. -/
def mention (kind : String) (name : List Char) : String :=
  s!" ({kind} '" ++ String.ofList name ++ "')"

/-- **What an error says of an operand:** the name of the variable or the field that it is. -/
def describe (f : Frame) : Exp → String
  | .var name => match Env.find? f.env name with
    | some v => mention (if v.level = f.level then "local" else "upvalue") name
    | none => mention "global" name
  | .index _ _ (.string b) => mention "field" b.display.toList
  | .index _ _ _ => mention "field" ['?']
  | .method _ _ _ _ | .call _ _ _ => ""
  | _ => ""

/-- The value of an operation; a complaint is raised as an error at a line. -/
def settle (f : Frame) (line : Nat) (left right : Exp) (r : Except Complaint Value) :
    Run Value :=
  match r with
  | .ok v => pure v
  | .error c => f.fail line (c.message fun side => match side with
    | .left => f.describe left
    | .right => f.describe right)

/-- The value under a key of what an expression gave; other values than tables and strings have
none. -/
def index (f : Frame) (line : Nat) (object : Exp) (v key : Value) : Run Value := do
  match ← Run.index? v key with
  | some r => return r
  | none => f.fail line (s!"attempt to index a {v.typeName} value" ++ f.describe object)

/-- Puts a value under a key of what an expression gave. -/
def store (f : Frame) (line : Nat) (what : String) (v key new : Value) : Run Unit :=
  match v, key with
  | .table _, .nil => f.fail line "index is nil"
  | .table n, key =>
    if key.rawEq key then Run.setField n key new else f.fail line "index is NaN"
  | v, _ => f.fail line (s!"attempt to index a {v.typeName} value" ++ what)

/-- New variables for names, with values in order; names without a value are `nil`. -/
def declare (f : Frame) : List Ident → Arguments → Run Env
  | [], _ => return f.env
  | name :: names, values => do
    let cell ← Run.newCell (values.headD .nil)
    (f.withEnv (f.bind name cell)).declare names values.tail

end Frame

/-- The name of the variable that holds the globals. -/
def environmentName : Ident := "_ENV".toList

/-- The statements behind a label of a block, and how many variables are declared before it. -/
def labelPlace (name : Ident) : Nat → Block → Option (Nat × Block)
  | _, [] => none
  | n, .label _ l :: rest => if l = name then some (n, rest) else labelPlace name n rest
  | n, .declare names _ :: rest => labelPlace name (n + names.length) rest
  | n, .declareFunction _ _ :: rest => labelPlace name (n + 1) rest
  | n, _ :: rest => labelPlace name n rest

/-! ## Loops over numbers -/

/-- How a loop over numbers runs: a number of times over integers, or over floats up to a
limit. -/
inductive NumericRange where
  | integers (start step : Int64) (count : Nat)
  | floats (start limit step : Float)

/-- The last integer of a loop with a given limit; none if the loop does not run. -/
def integerLimit (limit : Number) (step : Int) : Option Int :=
  match limit with
  | .int n => some n.toInt
  | .float x => match floorInt? x with
    | some w =>
      let n := if 0 < step ∨ exactInt? x = some w then w else w + 1
      if n < Int64.minValue.toInt then (if 0 < step then none else some Int64.minValue.toInt)
      else if Int64.maxValue.toInt < n then (if 0 < step then some Int64.maxValue.toInt else none)
      else some n
    | none =>
      if 0.0 < x then (if 0 < step then some Int64.maxValue.toInt else none)
      else if 0 < step then none else some Int64.minValue.toInt

/-- **The range of a loop** over numbers, from its three values; or what is wrong with them. -/
def NumericRange.ofValues (start limit step : Value) : Except String NumericRange :=
  match start.number?, limit.number?, step.number? with
  | _, none, _ => .error "'for' limit must be a number"
  | _, _, none => .error "'for' step must be a number"
  | none, _, _ => .error "'for' initial value must be a number"
  | some (.int a), some n, some (.int d) =>
    if d = 0 then .error "'for' step is zero"
    else match integerLimit n d.toInt with
      | none => .ok (.integers a d 0)
      | some last =>
        let distance := if 0 < d then last - a.toInt else a.toInt - last
        if distance < 0 then .ok (.integers a d 0)
        else .ok (.integers a d (distance.toNat / d.toInt.natAbs + 1))
  | some a, some n, some d =>
    if d.toFloat == 0.0 then .error "'for' step is zero"
    else .ok (.floats a.toFloat n.toFloat d.toFloat)

end Stencil.Lua
