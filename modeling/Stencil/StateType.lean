import Stencil.Text.Alphanumeric
import Stencil.Text.Split
import Stencil.Json.Basic
set_option autoImplicit false

/-!
# State types

What is known of the state before there is one: the name of its type, the library that defines
the type, and the names of its properties.

## Main definitions

* `Stencil.StateType` — the description.
* `Stencil.shortTypeName` — a type path without the paths of its names.
* `Stencil.libraryOf` — the library at the head of a type path.
* `Stencil.StateType.ofValue` — the description of a value of a given type.
-/

namespace Stencil

/-- **The description of a state.** -/
structure StateType where
  name : String
  library : String
  properties : List String
  deriving DecidableEq, Repr

/-! ## Type paths -/

/-- Whether a character belongs to a name. -/
def isWordChar (c : Char) : Bool := Text.isAlphanumeric c || c == '_'

/-- A type path, of whose first name `word` has been read: each pair of colons drops the name
before it. -/
def shortTypeNameFrom (word : List Char) : List Char → List Char
  | [] => word
  | ':' :: ':' :: rest => shortTypeNameFrom [] rest
  | c :: rest =>
    if isWordChar c then shortTypeNameFrom (word ++ [c]) rest
    else word ++ c :: shortTypeNameFrom [] rest

/-- **A type path without the paths of its names.** -/
def shortTypeName (path : List Char) : List Char := shortTypeNameFrom [] path

/-- Whether a character ends the head of a type path. -/
def endsHead (c : Char) : Bool := c == '<' || c == '[' || c == '(' || c == ' '

/-- **The library of a type path:** what stands before its first pair of colons. Signs of
references in front are passed over; types without a path have no library. -/
def libraryOf (path : List Char) : List Char :=
  let path := path.dropWhile fun c => c == '&' || c == '*'
  match Text.findText [':', ':'] (path.takeWhile fun c => !endsHead c) with
  | some (library, _) => library
  | none => []

/-! ## From values -/

namespace StateType

/-- **The description of a value** whose type has the given path: its properties are the keys of
a table, and nothing else has any. -/
def ofValue (path : String) (value : Json) : StateType where
  name := String.ofList (shortTypeName path.toList)
  library := String.ofList (libraryOf path.toList)
  properties := value.keys

/-- The type of trees of data. -/
def treePath : String := "serde_json::value::Value"

/-- The description of a tree of data. -/
def ofTree (value : Json) : StateType := ofValue treePath value

/-- The name of that type, whatever the tree. -/
theorem ofTree_name (value : Json) : (ofTree value).name = "Value" := by
  show String.ofList (shortTypeName treePath.toList) = "Value"
  decide +kernel

end StateType

end Stencil
