import Stencil.Lua.Library.Base
import Stencil.Lua.Operator
set_option autoImplicit false

/-!
# Functions on tables

## Main definitions

* `Stencil.Lua.TableFunction.run` — the functions.
* `Stencil.Lua.sortValues` — values in ascending order.
-/

namespace Stencil.Lua

/-! ## Sequences -/

/-- The values of a table from one key to another, as many as given. -/
def Table.sequence (t : Table) (first : Int) (count : Nat) : List Value :=
  (List.range count).map fun (i : Nat) => t.get (.int (Int64.ofInt (first + i)))

/-- A table with values in order from a key on. -/
def Table.setSequence (t : Table) (first : Int) : List Value → Table
  | [] => t
  | v :: vs => (t.set (.int (Int64.ofInt first)) v).setSequence (first + 1) vs

/-- The texts of a number of values from a key on, behind those read before, which stand in
reverse. The values must be strings or numbers. -/
def sequenceBytes (t : Table) (before : List Bytes) (first : Int) :
    Nat → Except Objection (List Bytes)
  | 0 => .ok before.reverse
  | count + 1 => match (t.get (.int (Int64.ofInt first))).bytes? with
    | some b => sequenceBytes t (b :: before) (first + 1) count
    | none => .error (.other
      s!"invalid value (at index {first}) in table for 'concat'")

/-- The most results that a call may have. -/
def maxResults : Nat := 1000000

/-- The values of a table in a row. -/
def unpacked (t : Table) (args : Arguments) : Except Objection Arguments := do
  let first ← args.integerOr 2 1
  let last ← args.integerOr 3 t.border
  let count := (last + 1 - first).toNat
  if maxResults ≤ count then .error (.other "too many results to unpack")
  else return t.sequence first count

/-- The values of a table one behind the other, with a separator. -/
def concatenated (t : Table) (args : Arguments) : Except Objection Bytes := do
  let separator ← args.bytesOr 2 []
  let first ← args.integerOr 3 1
  let last ← args.integerOr 4 t.border
  return separator.intercalate (← sequenceBytes t [] first (last + 1 - first).toNat)

/-- The table with a value put in, at the end or before a given place. -/
def inserted (t : Table) (args : Arguments) : Except Objection Table :=
  let next : Int := t.border + 1
  match args with
  | [_, v] => .ok (t.set (.int (Int64.ofInt next)) v)
  | [_, _, v] => do
    let place ← args.integer 2
    if place < 1 ∨ next < place then .error (.argument 2 "position out of bounds")
    else
      let moved := t.sequence place (next - place).toNat
      return t.setSequence place (v :: moved)
  | _ => .error (.other "wrong number of arguments to 'insert'")

/-- The value at the end or at a given place, and the table without it. -/
def removed (t : Table) (args : Arguments) : Except Objection (Value × Table) := do
  let size : Int := t.border
  let place ← args.integerOr 2 size
  if args.length ≠ 1 ∧ (size + 1 < place ∨ place < 1) ∧ ¬ (size = 0 ∧ place = 0) then
    .error (.argument 2 "position out of bounds")
  else
    let v := t.get (.int (Int64.ofInt place))
    let moved := t.sequence (place + 1) (size - place).toNat
    let shifted := t.setSequence place moved
    return (v, shifted.set (.int (Int64.ofInt (max place size))) .nil)

/-- A table with the arguments in order, and how many there are. -/
def packed (args : Arguments) : Table :=
  { items := args.toArray, entries := [(.text "n", .nat args.length)] }

/-! ## Order -/

/-- Whether a value goes before another: by a given function, or by the order of values. -/
def goesBefore (call : Caller) (trace : Trace) (order : Value) (a b : Value) : Run Bool :=
  match order with
  | .nil => match less a b with
    | .ok r => return r
    | .error complaint => Run.raise (.text (complaint.message fun _ => ""))
  | f => do return ((← call trace.cross f [a, b]).headD .nil).truth

/-- Two ascending lists made one, at most `fuel` values of it. -/
def mergeValues (before : Value → Value → Run Bool) :
    Nat → List Value → List Value → Run (List Value)
  | 0, as, bs => return as ++ bs
  | _, [], bs => return bs
  | _, as, [] => return as
  | fuel + 1, a :: as, b :: bs => do
    if ← before b a then return b :: (← mergeValues before fuel (a :: as) bs)
    else return a :: (← mergeValues before fuel as (b :: bs))

/-- **Values in ascending order,** by halves; `fuel` is how often they may be halved. -/
def sortValues (before : Value → Value → Run Bool) : Nat → List Value → Run (List Value)
  | 0, vs => return vs
  | fuel + 1, vs =>
    if vs.length < 2 then return vs
    else do
      let half := vs.length / 2
      let as ← sortValues before fuel (vs.take half)
      let bs ← sortValues before fuel (vs.drop half)
      mergeValues before vs.length as bs

/-! ## The functions -/

/-- **The functions on tables.** -/
def TableFunction.run (call : Caller) (trace : Trace) (f : TableFunction) (args : Arguments) :
    Run Arguments :=
  let check {α : Type} (e : Except Objection α) : Run α := Run.check trace f.name e
  match f with
  | .concat => do
    let t ← Run.table (← check (args.table 1))
    return [.string (← check (concatenated t args))]
  | .insert => do
    let n ← check (args.table 1)
    Run.setTable n (← check (inserted (← Run.table n) args))
    return []
  | .move => do
    let source ← Run.table (← check (args.table 1))
    let first ← check (args.integer 2)
    let last ← check (args.integer 3)
    let place ← check (args.integer 4)
    let n ← check (args.table (if args.isMissing 5 then 1 else 5))
    let values := source.sequence first (last + 1 - first).toNat
    Run.setTable n ((← Run.table n).setSequence place values)
    return [.table n]
  | .pack => return [← Run.newTable (packed args)]
  | .remove => do
    let n ← check (args.table 1)
    let (v, t) ← check (removed (← Run.table n) args)
    Run.setTable n t
    return [v]
  | .sort => do
    let n ← check (args.table 1)
    let t ← Run.table n
    let order ← if args.isMissing 2 then pure .nil else check (args.function 2)
    let size := t.border
    let sorted ← sortValues (goesBefore call trace order) size (t.sequence 1 size)
    Run.setTable n ((← Run.table n).setSequence 1 sorted)
    return []
  | .unpack => do
    let t ← Run.table (← check (args.table 1))
    check (unpacked t args)

end Stencil.Lua
