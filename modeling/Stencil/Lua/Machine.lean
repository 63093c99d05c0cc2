import Stencil.Include
import Stencil.Lua.Tree
import Stencil.Lua.Value
set_option autoImplicit false

/-!
# The machine

What programs work on: tables, variables and functions, each under a number that never changes.
An action on the machine ends with a value, raises an error, or has no steps left.

## Main definitions

* `Stencil.Lua.Table` — a table, with its items in order apart from its other entries.
* `Stencil.Lua.Machine` — all tables, variables and functions.
* `Stencil.Lua.Run` — actions on the machine.
* `Stencil.Lua.Run.protect` — an action whose error becomes a value.
-/

namespace Stencil.Lua

/-! ## Tables -/

/-- **A table.** The items stand at the keys from one on; some of them may be `nil`. -/
structure Table where
  items : Array Value := #[]
  entries : List (Value × Value) := []

namespace Table

/-- The integer of a key, floats with a whole value included. -/
def integerKey? : Value → Option Int64
  | .number n => n.toInteger?
  | _ => none

/-- A key with a whole float made an integer. -/
def normalKey (key : Value) : Value :=
  match integerKey? key with
  | some n => .int n
  | none => key

/-- The place of a key among a number of items. -/
def place? (size : Nat) (key : Value) : Option Nat :=
  match integerKey? key with
  | some n =>
    if 1 ≤ n.toInt ∧ n.toInt ≤ size then some (n.toInt.toNat - 1) else none
  | none => none

/-- The value under a key of a list of entries. -/
def lookup (key : Value) : List (Value × Value) → Value
  | [] => .nil
  | (k, v) :: rest => if k.rawEq key then v else lookup key rest

/-- The entries with a value under a key. A key once there keeps its place, even without a
value. -/
def replace (key value : Value) : List (Value × Value) → List (Value × Value)
  | [] => if value.isNil then [] else [(key, value)]
  | (k, v) :: rest => if k.rawEq key then (k, value) :: rest else (k, v) :: replace key value rest

/-- The entries other than that of a key. -/
def without (key : Value) (entries : List (Value × Value)) : List (Value × Value) :=
  entries.filter fun e => !e.1.rawEq key

/-- **The value under a key;** `nil` if there is none. -/
def get (t : Table) (key : Value) : Value :=
  match place? t.items.size key with
  | some i => t.items.getD i .nil
  | none => lookup key t.entries

/-- Items that the entries continue, at most `fuel` of them, moved to the others. -/
def absorb : Nat → Table → Table
  | 0, t => t
  | fuel + 1, t =>
    let key := Value.nat (t.items.size + 1)
    match lookup key t.entries with
    | .nil => t
    | v => absorb fuel ⟨t.items.push v, without key t.entries⟩

/-- **The table with a value under a key.** A value right behind the items becomes one. -/
def set (t : Table) (key value : Value) : Table :=
  match place? t.items.size key with
  | some i => { t with items := t.items.setIfInBounds i value }
  | none =>
    match integerKey? key with
    | some n =>
      if n.toInt = t.items.size + 1 ∧ !value.isNil then
        absorb t.entries.length
          ⟨t.items.push value, without (.int n) t.entries⟩
      else { t with entries := replace (.int n) value t.entries }
    | none => { t with entries := replace key value t.entries }

/-- A place between `low` and `high` with an item before it and none at it. -/
def borderBetween (items : Array Value) : Nat → Nat → Nat → Nat
  | 0, low, _ => low
  | fuel + 1, low, high =>
    if high ≤ low + 1 then low
    else
      let middle := (low + high) / 2
      if (items.getD (middle - 1) .nil).isNil then borderBetween items fuel low middle
      else borderBetween items fuel middle high

/-- **The length of a table:** the number of its items if none is `nil`; otherwise a number of
items behind which one is. -/
def border (t : Table) : Nat :=
  let n := t.items.size
  if n = 0 ∨ !(t.items.getD (n - 1) .nil).isNil then n
  else if 2 ≤ n ∧ !(t.items.getD (n - 2) .nil).isNil then n - 1
  else borderBetween t.items n 0 n

/-- The keys and values in the order in which they are visited, keys without a value included. -/
def slots (t : Table) : List (Value × Value) :=
  t.items.toList.zipIdx.map (fun (v, i) => (Value.nat (i + 1), v)) ++ t.entries

/-- The keys and values in the order in which they are visited. -/
def pairs (t : Table) : List (Value × Value) := t.slots.filter fun e => !e.2.isNil

/-- The slots behind a key; none if the key is not in the table. -/
def slotsAfter (t : Table) (key : Value) : Option (List (Value × Value)) :=
  match key with
  | .nil => some t.slots
  | _ => (t.slots.dropWhile fun e => !e.1.rawEq key).tail?

/-- The pair that is visited behind a key: `some none` behind the last, `none` if the key is not
in the table. -/
def after (t : Table) (key : Value) : Option (Option (Value × Value)) :=
  (t.slotsAfter key).map fun slots => slots.find? fun e => !e.2.isNil

end Table

/-! ## Functions and variables -/

/-- A local variable: its name, its place in the machine, and how many functions are around its
declaration. -/
structure Variable where
  name : Ident
  cell : Nat
  level : Nat

/-- The local variables that can be seen, innermost first. -/
abbrev Env := List Variable

/-- A function of a program, with the variables that it sees. -/
structure Closure where
  params : List Ident
  variadic : Bool
  body : Block
  env : Env
  level : Nat
  /-- The name of the program, as errors give it. -/
  chunk : Bytes

/-- A search for one match after another: the place where it goes on, and the end of the last
match. -/
structure Search where
  subject : Bytes
  pattern : Bytes
  start : Nat
  last : Option Nat

/-- **All tables, variables and functions.** -/
structure Machine where
  tables : Array Table := #[]
  cells : Array Value := #[]
  closures : Array Closure := #[]
  searches : Array Search := #[]
  /-- For each function that asks the host for content, whom it asks; none where it may not. -/
  inclusions : Array (Option (Option Resolver)) := #[]
  /-- The table of the functions on strings. -/
  strings : Nat := 0

/-! ## Actions -/

/-- What comes of an action. -/
inductive Step (α : Type) where
  | done (a : α) (m : Machine)
  | raised (error : Value) (m : Machine)
  /-- No steps are left. -/
  | exhausted

/-- **Actions on the machine.** -/
def Run (α : Type) : Type := Machine → Step α

namespace Run

variable {α β : Type}

/-- The action that does nothing. -/
@[inline] def pure (a : α) : Run α := fun m => .done a m

/-- One action and then another. -/
@[inline] def bind (x : Run α) (f : α → Run β) : Run β := fun m =>
  match x m with
  | .done a m => f a m
  | .raised e m => .raised e m
  | .exhausted => .exhausted

instance : Monad Run where
  pure := pure
  bind := bind

/-- The action that has no steps left. -/
def exhausted : Run α := fun _ => .exhausted

/-- Raises an error. -/
def raise (error : Value) : Run α := fun m => .raised error m

/-- The machine. -/
def get : Run Machine := fun m => .done m m

/-- **An action whose error becomes a value.** What it did before the error stays done. -/
def protect (x : Run α) : Run (Except Value α) := fun m =>
  match x m with
  | .done a m => .done (.ok a) m
  | .raised e m => .done (.error e) m
  | .exhausted => .exhausted

/-! ## Things of the machine -/

/-- A new table. -/
def newTable (t : Table) : Run Value := fun m =>
  .done (.table m.tables.size) { m with tables := m.tables.push t }

/-- The table of a number. -/
def table (n : Nat) : Run Table := fun m => .done (m.tables.getD n {}) m

/-- Puts a value under a key of a table. -/
def setField (n : Nat) (key value : Value) : Run Unit := fun m =>
  .done () { m with tables := m.tables.modify n fun t => t.set key value }

/-- Replaces a table. -/
def setTable (n : Nat) (t : Table) : Run Unit := fun m =>
  .done () { m with tables := m.tables.setIfInBounds n t }

/-- A new variable with a value. -/
def newCell (v : Value) : Run Nat := fun m =>
  .done m.cells.size { m with cells := m.cells.push v }

/-- The value of a variable. -/
def cell (n : Nat) : Run Value := fun m => .done (m.cells.getD n .nil) m

/-- Gives a variable a value. -/
def setCell (n : Nat) (v : Value) : Run Unit := fun m =>
  .done () { m with cells := m.cells.setIfInBounds n v }

/-- A new function. -/
def newClosure (c : Closure) : Run Value := fun m =>
  .done (.closure m.closures.size) { m with closures := m.closures.push c }

/-- A new search. -/
def newSearch (s : Search) : Run Value := fun m =>
  .done (.matcher m.searches.size) { m with searches := m.searches.push s }

/-- Replaces a search. -/
def setSearch (n : Nat) (s : Search) : Run Unit := fun m =>
  .done () { m with searches := m.searches.setIfInBounds n s }

/-- A new function that asks the host for content. -/
def newInclusion (asked : Option (Option Resolver)) : Run Value := fun m =>
  .done (.inclusion m.inclusions.size) { m with inclusions := m.inclusions.push asked }

end Run

end Stencil.Lua
