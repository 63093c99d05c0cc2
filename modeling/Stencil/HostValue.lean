import Stencil.StateType
import Stencil.Error
import Stencil.NameMap
set_option autoImplicit false

/-!
# Values of a host

A host renders for a value of its own. Its maps may have keys of any kind; a tree of data has
strings for keys, so not every value of a host becomes one.

## Main definitions

* `Stencil.HostValue` — the values.
* `Stencil.HostValue.toTree` — the tree of data for a value.
* `Stencil.StateType.ofHostValue` — the description of a value of a given type.
-/

namespace Stencil

/-- **The values of a host.** -/
inductive HostValue where
  | null
  | bool (b : Bool)
  | int (n : Int)
  | string (s : String)
  | list (items : List HostValue)
  | map (entries : List (HostValue × HostValue))

namespace HostValue

/-- **The string for a key.** Truth values and whole numbers are spelled out; other values are no
keys. -/
def keyText : HostValue → Except Error String
  | string s => .ok s
  | int n => .ok (toString n)
  | bool b => .ok (if b then "true" else "false")
  | _ => .error (.stateSerialization "key must be a string")

mutual

/-- **The tree of data for a value.** Tables are in the order of their keys. -/
def toTree : HostValue → Except Error Json
  | null => .ok .null
  | bool b => .ok (.bool b)
  | int n => .ok (.int n)
  | string s => .ok (.string s)
  | list items => (treesOf items).map .array
  | map entries => (entriesOf entries).map fun es => .object (NameMap.ofList es).entries

/-- The trees for the items of a list. -/
def treesOf : List HostValue → Except Error (List Json)
  | [] => .ok []
  | v :: vs => do
    let t ← toTree v
    let ts ← treesOf vs
    return t :: ts

/-- The entries of a table for those of a map. -/
def entriesOf : List (HostValue × HostValue) → Except Error (List (String × Json))
  | [] => .ok []
  | (k, v) :: rest => do
    let key ← keyText k
    let t ← toTree v
    let es ← entriesOf rest
    return (key, t) :: es

end

end HostValue

/-- The description of a value of a host whose type has the given path. -/
def StateType.ofHostValue (path : String) (value : HostValue) : Except Error StateType :=
  value.toTree.map (StateType.ofValue path)

end Stencil
