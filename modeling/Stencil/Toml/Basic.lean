import Stencil.Json.Basic
import Stencil.NameMap
set_option autoImplicit false

/-!
# TOML documents

## Main definitions

* `Stencil.Toml` — the values of a document.
* `Stencil.Toml.Draft` — a document under construction, which remembers how each table came to be.
* `Stencil.Toml.Draft.insertKey`, `openTable`, `openTables` — the three kinds of lines.
* `Stencil.Toml.toJson` — a value as a tree of data.
-/

namespace Stencil

/-- **Values of a TOML document.** A point in time is kept as its normal text. -/
inductive Toml where
  | string (s : String)
  | integer (n : Int)
  | float (x : Float)
  | boolean (b : Bool)
  | datetime (text : String)
  | array (items : List Toml)
  | table (entries : List (String × Toml))
  deriving Inhabited

namespace Toml

/-! ## Documents under construction -/

/-- **How a table came to be.** -/
inductive Origin where
  /-- A longer header passed through it. -/
  | implied
  /-- A dotted key passed through it. -/
  | dotted
  /-- A header names it. -/
  | header
  deriving DecidableEq, Repr

/-- **A document under construction.** -/
inductive Draft where
  /-- A value, which cannot be added to. -/
  | value (v : Toml)
  | table (origin : Origin) (entries : List (String × Draft))
  /-- The tables of one array header, the last one first. -/
  | tables (items : List (List (String × Draft)))

/-- The entries of a table under construction. -/
abbrev Entries := List (String × Draft)

namespace Draft

/-- **The line `keys = value`** in a table. The value goes into the table that the keys but the
last lead to: the open one itself, or one that dotted keys made. No key is set twice. -/
def insertKey (value : Toml) : List String → Bool → Entries → Option Entries
  | [], _, _ => none
  | [k], allowed, es =>
    if allowed && (es.lookup k).isNone then some (NameMap.insertEntry k (.value value) es) else none
  | k :: ks, _, es =>
    match es.lookup k with
    | none => (insertKey value ks true []).map fun sub =>
        NameMap.insertEntry k (.table .dotted sub) es
    | some (.table .dotted sub) => (insertKey value ks true sub).map fun sub =>
        NameMap.insertEntry k (.table .dotted sub) es
    | some (.table .implied sub) => (insertKey value ks false sub).map fun sub =>
        NameMap.insertEntry k (.table .implied sub) es
    | some (.tables (last :: before)) => (insertKey value ks false last).map fun last =>
        NameMap.insertEntry k (.tables (last :: before)) es
    | some _ => none

/-- **A change somewhere below:** tables on the way are made, and of an array of tables the last
one is meant. -/
def descend (change : Entries → Option Entries) : List String → Entries → Option Entries
  | [], es => change es
  | k :: ks, es =>
    match es.lookup k with
    | none => (descend change ks []).map fun sub =>
        NameMap.insertEntry k (.table .implied sub) es
    | some (.table origin sub) => (descend change ks sub).map fun sub =>
        NameMap.insertEntry k (.table origin sub) es
    | some (.tables (last :: before)) => (descend change ks last).map fun last =>
        NameMap.insertEntry k (.tables (last :: before)) es
    | some _ => none

/-- **The header of a table.** A table has one header; one made by dotted keys has none. -/
def openTable (key : String) (es : Entries) : Option Entries :=
  match es.lookup key with
  | none => some (NameMap.insertEntry key (.table .header []) es)
  | some (.table .implied sub) => some (NameMap.insertEntry key (.table .header sub) es)
  | some _ => none

/-- **The header of one more table** in an array of tables. -/
def openTables (key : String) (es : Entries) : Option Entries :=
  match es.lookup key with
  | none => some (NameMap.insertEntry key (.tables [[]]) es)
  | some (.tables items) => some (NameMap.insertEntry key (.tables ([] :: items)) es)
  | some _ => none

mutual

/-- The finished value. -/
def finish : Draft → Toml
  | value v => v
  | table _ es => .table (finishEntries es)
  | tables items => .array (finishTables items).reverse

/-- The finished entries. -/
def finishEntries : List (String × Draft) → List (String × Toml)
  | [] => []
  | (k, d) :: es => (k, finish d) :: finishEntries es

/-- The finished tables of an array. -/
def finishTables : List (List (String × Draft)) → List Toml
  | [] => []
  | es :: items => .table (finishEntries es) :: finishTables items

end

end Draft

/-! ## As trees of data -/

/-- The key of the table that stands for a point in time. -/
def datetimeKey : String := "$__toml_private_datetime"

mutual

/-- **A value as a tree of data.** A point in time is a table with its text; a float without a
number is null. -/
def toJson : Toml → Json
  | string s => .string s
  | integer n => .int n
  | float x => if x.isFinite then .float x else .null
  | boolean b => .bool b
  | datetime text => .object [(datetimeKey, .string text)]
  | array items => .array (itemsToJson items)
  | table es => .object (entriesToJson es)

/-- The items of an array as trees of data. -/
def itemsToJson : List Toml → List Json
  | [] => []
  | t :: ts => toJson t :: itemsToJson ts

/-- The entries of a table as trees of data. -/
def entriesToJson : List (String × Toml) → List (String × Json)
  | [] => []
  | (k, t) :: es => (k, toJson t) :: entriesToJson es

end

end Toml

end Stencil
