import Stencil.Lua.Argument
set_option autoImplicit false

/-!
# The base library

## Main definitions

* `Stencil.Lua.BaseFunction.run` — the functions.
* `Stencil.Lua.callProtected` — a call whose error becomes a value.
-/

namespace Stencil.Lua

/-- How library functions call functions: with the places of the calls around. -/
abbrev Caller := Trace → Value → Arguments → Run Arguments

/-- **A call whose error becomes a value.** The results follow `true`, the error `false`. -/
def callProtected (call : Caller) (trace : Trace) (f : Value) (args : Arguments) :
    Run Arguments := do
  match ← Run.protect (call trace.cross f args) with
  | .ok results => return .bool true :: results
  | .error e => return [.bool false, e]

/-- A call whose error is given to a handler. -/
def callHandled (call : Caller) (trace : Trace) (f handler : Value) (args : Arguments) :
    Run Arguments := do
  match ← Run.protect (call trace.cross f args) with
  | .ok results => return .bool true :: results
  | .error e => return .bool false :: (← call trace.cross handler [e])

/-- An error value with the place of a call in front, if it is a string. -/
def located (trace : Trace) (level : Int) : Value → Value
  | .string b => if 0 < level then .string (trace.siteText level.toNat ++ b) else .string b
  | v => v

/-- The value of a digit in bases up to 36. -/
def digitOf36 (c : Char) : Option Nat :=
  if c.isDigit then some (c.toNat - '0'.toNat)
  else if c.isAlpha then some (c.toLower.toNat - 'a'.toNat + 10)
  else none

/-- The integer that a text spells in a base. -/
def integerInBase (base : Nat) (s : List Char) : Option Int64 :=
  let (negative, ds) := Number.splitSign (Number.strip s)
  match ds.mapM fun c => (digitOf36 c).filter (· < base) with
  | some (d :: ds) =>
    let n := Int64.ofNat ((d :: ds).foldl (fun n d => n * base + d) 0)
    some (if negative then -n else n)
  | _ => none

/-- The number that an argument means, in a base if one is given; `nil` for what is no number. -/
def toNumber (args : Arguments) : Except Objection Value :=
  if args.isMissing 2 then
    match args.value 1 with
    | .number n => .ok (.number n)
    | .string b => .ok (((Value.string b).number?.map .number).getD .nil)
    | _ => do
      let _ ← args.any 1
      return .nil
  else do
    let base ← args.integer 2
    match args.value 1 with
    | .string b =>
      if 2 ≤ base ∧ base ≤ 36 then
        return ((integerInBase base.toNat (Bytes.numbered b)).map .int).getD .nil
      else .error (.argument 2 "base out of range")
    | _ => .error (args.expected 1 "string")

/-- The arguments from a number on, or how many there are. -/
def selection (args : Arguments) : Except Objection Arguments :=
  match args.value 1 with
  | .string b =>
    if b = [Bytes.byteOf '#'] then .ok [.nat (args.length - 1)] else selected
  | _ => selected
where
  /-- The arguments from a number on. -/
  selected : Except Objection Arguments := do
    let n ← args.integer 1
    if 0 < n then return args.drop n.toNat
    else if n = 0 ∨ n < -((args.length : Int) - 1) then
      .error (.argument 1 "index out of range")
    else return args.drop (args.length + n).toNat

/-- **The functions of the base library.** -/
def BaseFunction.run (call : Caller) (trace : Trace) (f : BaseFunction) (args : Arguments) :
    Run Arguments :=
  let check {α : Type} (e : Except Objection α) : Run α := Run.check trace f.name e
  match f with
  | .assert => do
    if (← check (args.any 1)).truth then return args
    else match args with
      | [_] => Run.fail trace "assertion failed!"
      | _ => Run.raise (located trace 1 (args.value 2))
  | .error => do
    let level ← check (args.integerOr 2 1)
    Run.raise (located trace level (args.value 1))
  | .ipairs => do
    let t ← check (args.any 1)
    return [.builtin (.base .ipairsStep), t, .nat 0]
  | .ipairsStep => do
    let n ← check (args.integer 2)
    let key := Value.int (Int64.ofInt (n + 1))
    match ← Run.index? (args.value 1) key with
    | none => Run.raise (.text s!"attempt to index a {(args.value 1).typeName} value")
    | some .nil => return [.nil]
    | some v => return [key, v]
  | .next => do
    let t ← Run.table (← check (args.table 1))
    match t.after (args.value 2) with
    | none => Run.raise (.text "invalid key to 'next'")
    | some none => return [.nil]
    | some (some (k, v)) => return [k, v]
  | .pairs => do
    let t ← check (args.any 1)
    return [.builtin (.base .next), t, .nil]
  | .pcall => do
    let g ← check (args.any 1)
    callProtected call trace g args.tail
  | .rawequal => do
    let a ← check (args.any 1)
    let b ← check (args.any 2)
    return [.bool (a.rawEq b)]
  | .rawget => do
    let t ← Run.table (← check (args.table 1))
    return [t.get (← check (args.any 2))]
  | .rawlen => match args.value 1 with
    | .table n => return [.nat (← Run.table n).border]
    | .string b => return [.nat b.length]
    | _ => Run.fail trace ((Objection.argument 1 "table or string expected").message f.name)
  | .rawset => do
    let n ← check (args.table 1)
    let key ← check (args.any 2)
    let v ← check (args.any 3)
    Run.setField n key v
    return [.table n]
  | .select => check (selection args)
  | .tonumber => return [← check (toNumber args)]
  | .tostring => return [.string (← check (args.any 1)).display]
  | .type => return [.text (← check (args.any 1)).typeName]
  | .xpcall => do
    let handler ← check (args.function 2)
    callHandled call trace (args.value 1) handler (args.drop 2)

end Stencil.Lua
