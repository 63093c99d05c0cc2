import Stencil.Template.Token
set_option autoImplicit false

/-!
# Reading tokens one at a time

A cursor hands out the tokens of a source on demand. It is always one token ahead, so its mode
is that behind the token to come. There are two ways to take a token: `next` gives end tokens
for ever, `iterate` stops once it has given one.

## Main definitions

* `Stencil.Template.Cursor` — the token to come, the scanner behind it, and whether `iterate`
  has given the end token.
* `Stencil.Template.Cursor.peek`, `next`, `iterate`, `hasMore`, `mode` — the ways to drive it.
-/

namespace Stencil.Template

/-- **A position in the token stream,** one token ahead of what has been taken. -/
structure Cursor where
  ahead : Token
  scan : Scan
  exhausted : Bool
  deriving DecidableEq, Repr

namespace Cursor

/-- The cursor in front of the first token of a source. -/
def start (source : String) : Cursor :=
  let s := Scan.start source.toList
  ⟨s.token, s.advance, false⟩

/-- The token to come. -/
def peek (c : Cursor) : Token := c.ahead

/-- Whether the token to come is not the end. -/
def hasMore (c : Cursor) : Bool := c.ahead.lexeme != .finish

/-- The mode behind the token to come. -/
def mode (c : Cursor) : Mode := c.scan.mode

/-- Takes the token to come. -/
def next (c : Cursor) : Token × Cursor :=
  (c.ahead, { c with ahead := c.scan.token, scan := c.scan.advance })

/-- Takes the token to come, unless an earlier `iterate` has taken an end token. -/
def iterate (c : Cursor) : Option Token × Cursor :=
  if c.exhausted then (none, c)
  else
    let (t, c') := c.next
    (some t, { c' with exhausted := t.lexeme == .finish })

end Cursor

end Stencil.Template
