import Stencil.Text.Quoted
set_option autoImplicit false

/-!
# Errors in a template

What can be wrong with a template before any program is made from it, where it was found, and
how it reads.

## Main definitions

* `Stencil.Template.SyntaxError` — the four causes, each with byte offset and line.
* `Stencil.Template.SyntaxError.message` — the text of an error.
-/

namespace Stencil.Template

/-- **What is wrong with a template,** with the byte offset and the line of the place. -/
inductive SyntaxError where
  /-- A block is opened there and never closed. -/
  | unterminatedBlock (position line : Nat)
  /-- The directive there is not one key and one value. -/
  | invalidDirective (directive : String) (position line : Nat)
  /-- The directive there has a key that means nothing. -/
  | unknownDirective (key directive : String) (position line : Nat)
  /-- A token that cannot stand there. -/
  | unexpectedToken (token : String) (position line : Nat)
  deriving DecidableEq, Repr

namespace SyntaxError

/-- The byte offset of an error. -/
def position : SyntaxError → Nat
  | unterminatedBlock p _ | invalidDirective _ p _ | unknownDirective _ _ p _
  | unexpectedToken _ p _ => p

/-- The line of an error. -/
def line : SyntaxError → Nat
  | unterminatedBlock _ l | invalidDirective _ _ l | unknownDirective _ _ _ l
  | unexpectedToken _ _ l => l

/-- The text of an error. -/
def message : SyntaxError → String
  | unterminatedBlock p l =>
    s!"Code block that starts at position {p}, line {l}, does not complete"
  | invalidDirective d _ l => s!"Invalid directive found in template at line {l}: {d}"
  | unknownDirective k d _ l =>
    s!"Invalid directive found in template at line {l}: {d} (unknown key '{k}')"
  | unexpectedToken t p l =>
    s!"Unsupported token from template tokenizer at position {p}, line {l}: {Text.quoted t}"

end SyntaxError

end Stencil.Template
