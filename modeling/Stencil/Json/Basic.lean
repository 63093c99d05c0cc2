import Stencil.Text.Quoted
import Stencil.Number.Decimal
set_option autoImplicit false

/-!
# Trees of data

States, configurations and answers are trees: null, booleans, numbers, strings, lists and tables
with string keys.

## Main definitions

* `Stencil.Json` — the trees.
* `Stencil.Json.field?` — an entry of a table.
* `Stencil.Json.keys` — the keys of a table.
* `Stencil.Json.compact`, `pretty` — a tree as text, on one line or on many.
-/

namespace Stencil

/-- **Trees of data.** Whole numbers and floats are kept apart, as their spelling tells. -/
inductive Json where
  | null
  | bool (b : Bool)
  | int (n : Int)
  | float (x : Float)
  | string (s : String)
  | array (items : List Json)
  | object (entries : List (String × Json))
  deriving Inhabited

namespace Json

/-! ## Looking inside -/

/-- The entries of a table; nothing else has any. -/
def entries : Json → List (String × Json)
  | object es => es
  | _ => []

/-- The items of a list; nothing else has any. -/
def items : Json → List Json
  | array xs => xs
  | _ => []

/-- The text of a string; nothing else has one. -/
def string? : Json → Option String
  | string s => some s
  | _ => none

/-- The entry of a table. -/
def field? (j : Json) (key : String) : Option Json := j.entries.lookup key

/-- The keys of a table, in its order. -/
def keys (j : Json) : List String := j.entries.map Prod.fst

/-- A list of strings. -/
def strings (ss : List String) : Json := array (ss.map string)

/-! ## As text -/

/-- A control character with a two-character form. -/
def shortEscape : Char → Option Char
  | '"' => some '"'
  | '\\' => some '\\'
  | '\n' => some 'n'
  | '\r' => some 'r'
  | '\t' => some 't'
  | '\x08' => some 'b'
  | '\x0c' => some 'f'
  | _ => none

/-- Two digits in base sixteen. -/
def hexByte (n : Nat) : List Char :=
  [Nat.digitChar (n / 16 % 16), Nat.digitChar (n % 16)]

/-- **One character of a string.** The quote, the backslash and the control characters below the
space are escaped; all else stands for itself. -/
def escapeChar (c : Char) : List Char :=
  match shortEscape c with
  | some e => ['\\', e]
  | none => if c.toNat < 0x20 then "\\u00".toList ++ hexByte c.toNat else [c]

/-- A string in quotes. -/
def quote (s : String) : String :=
  String.ofList ('"' :: s.toList.flatMap escapeChar ++ ['"'])

/-- The text of a float: seventeen digits tell it from every other. -/
def floatText (x : Float) : String :=
  match Number.Binary64.ofFloat x with
  | .finite .. => String.ofList (Number.general 17 x)
  | _ => "null"

/-- Where the text of a list or a table breaks its lines: nowhere, or in front of each item and
of the closing bracket, with two spaces for each level. -/
inductive Layout where
  | compact
  | lines (level : Nat)
  deriving DecidableEq, Repr

/-- The layout one level further in. -/
def Layout.deeper : Layout → Layout
  | compact => compact
  | lines n => lines (n + 1)

/-- A line break with its indentation. -/
def Layout.break : Layout → String
  | compact => ""
  | lines n => "\n" ++ String.ofList (List.replicate (2 * n) ' ')

/-- What stands between a key and its value. -/
def Layout.colon : Layout → String
  | compact => ":"
  | lines _ => ": "

mutual

/-- The text of a tree. -/
def render (layout : Layout) : Json → String
  | null => "null"
  | bool true => "true"
  | bool false => "false"
  | int n => toString n
  | float x => floatText x
  | string s => quote s
  | array [] => "[]"
  | array (x :: xs) =>
    "[" ++ renderItems layout.deeper (x :: xs) ++ layout.break ++ "]"
  | object [] => "\x7b\x7d"
  | object (e :: es) =>
    "\x7b" ++ renderEntries layout.deeper (e :: es) ++ layout.break ++ "\x7d"

/-- The items of a list, each behind its line break. -/
def renderItems (layout : Layout) : List Json → String
  | [] => ""
  | [x] => layout.break ++ render layout x
  | x :: xs => layout.break ++ render layout x ++ "," ++ renderItems layout xs

/-- The entries of a table, each behind its line break. -/
def renderEntries (layout : Layout) : List (String × Json) → String
  | [] => ""
  | [(k, v)] => layout.break ++ quote k ++ layout.colon ++ render layout v
  | (k, v) :: es =>
    layout.break ++ quote k ++ layout.colon ++ render layout v ++ "," ++ renderEntries layout es

end

@[simp] theorem render_string (layout : Layout) (s : String) : render layout (string s) = quote s := by
  rw [render]

@[simp] theorem render_array_cons (layout : Layout) (x : Json) (xs : List Json) :
    render layout (array (x :: xs)) =
      "[" ++ renderItems layout.deeper (x :: xs) ++ layout.break ++ "]" := by
  rw [render]

@[simp] theorem renderItems_nil (layout : Layout) : renderItems layout [] = "" := by
  rw [renderItems]

@[simp] theorem renderItems_singleton (layout : Layout) (x : Json) :
    renderItems layout [x] = layout.break ++ render layout x := by
  rw [renderItems]

@[simp] theorem renderItems_cons_cons (layout : Layout) (x y : Json) (xs : List Json) :
    renderItems layout (x :: y :: xs) =
      layout.break ++ render layout x ++ "," ++ renderItems layout (y :: xs) := by
  rw [renderItems]
  simp

/-- **A tree on one line.** -/
def compact (j : Json) : String := render .compact j

/-- **A tree on many lines,** two spaces for each level. Empty lists and tables stay on one. -/
def pretty (j : Json) : String := render (.lines 0) j

end Json

end Stencil
