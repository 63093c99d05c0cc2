import Stencil.Text.Blank
set_option autoImplicit false

/-!
# Names and string literals of Lua

## Main definitions

* `Stencil.Lua.Keyword` — the words that name nothing.
* `Stencil.Lua.isIdentifier` — what may name a local variable.
* `Stencil.Lua.isReserved` — the names that a generated program keeps for itself.
* `Stencil.Lua.quote` — a text as a string literal on one line.
-/

namespace Stencil.Lua

/-! ## Names -/

/-- **The words of the language,** which name nothing. -/
inductive Keyword where
  | and | «break» | «do» | «else» | elseif | «end» | false | «for» | function | goto | «if»
  | «in» | «local» | nil | not | or | «repeat» | «return» | «then» | true | «until» | «while»
  deriving DecidableEq, Repr

/-- The keywords with their spellings. -/
def keywords : List (List Char × Keyword) :=
  [("and".toList, .and), ("break".toList, .«break»), ("do".toList, .«do»),
   ("else".toList, .«else»), ("elseif".toList, .elseif), ("end".toList, .«end»),
   ("false".toList, .false), ("for".toList, .«for»), ("function".toList, .function),
   ("goto".toList, .goto), ("if".toList, .«if»), ("in".toList, .«in»),
   ("local".toList, .«local»), ("nil".toList, .nil), ("not".toList, .not), ("or".toList, .or),
   ("repeat".toList, .«repeat»), ("return".toList, .«return»), ("then".toList, .«then»),
   ("true".toList, .true), ("until".toList, .«until»), ("while".toList, .«while»)]

/-- The keyword with a spelling. -/
def Keyword.ofText? (s : List Char) : Option Keyword := keywords.lookup s

/-- Whether a character may begin a name. -/
def isNameStart (c : Char) : Bool := c.isAlpha || c == '_'

/-- Whether a character may stand in a name. -/
def isNameChar (c : Char) : Bool := c.isAlphanum || c == '_'

/-- Whether a text has the form of a name; it may still be a keyword. -/
def isNameText : List Char → Bool
  | [] => false
  | c :: s => isNameStart c && s.all isNameChar

/-- **Names of variables:** letters of ASCII, digits and underscores, no digit in front, and no
keyword. -/
def isIdentifier (name : String) : Bool :=
  isNameText name.toList && (Keyword.ofText? name.toList).isNone

/-- The table through which a program reaches the host. -/
def supportName : String := "codet"

/-- **Names that a generated program keeps for itself:** those with two underscores in front, the
environment, and the support table. -/
def isReserved (name : String) : Bool :=
  ['_', '_'].isPrefixOf name.toList || name == "_ENV" || name == supportName

/-- Names that a template may use for a variable. -/
def isUsable (name : String) : Bool := isIdentifier name && !isReserved name

/-! ## String literals -/

/-- Three decimal digits. -/
def threeDigits (n : Nat) : List Char :=
  [Nat.digitChar (n / 100 % 10), Nat.digitChar (n / 10 % 10), Nat.digitChar (n % 10)]

/-- One character of a string literal. -/
def quoteChar (c : Char) : List Char :=
  if c = '\\' then ['\\', '\\'] else
  if c = '"' then ['\\', '"'] else
  if c = '\n' then ['\\', 'n'] else
  if c = '\r' then ['\\', 'r'] else
  if c = '\t' then ['\\', 't'] else
  if c.toNat < 32 ∨ c.toNat = 127 then '\\' :: threeDigits c.toNat else [c]

/-- The characters of a string literal with the given value. -/
def quoteText (s : List Char) : List Char := '"' :: s.flatMap quoteChar ++ ['"']

/-- **A text as a string literal.** Control characters are escaped, so the literal stays on one
line. -/
def quote (s : String) : String := String.ofList (quoteText s.toList)

end Stencil.Lua
