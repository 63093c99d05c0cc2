import Stencil.Text.Printable
set_option autoImplicit false

/-!
# Quoted texts

A text in double quotes in which every character can be seen. The quote, the backslash and the
common control characters have two-character forms; any other character that does not show by
itself is written as its code point in braces.

## Main definitions

* `Stencil.Text.escapeChar` — one character inside a quoted text.
* `Stencil.Text.quoted` — a text in quotes.
* `Stencil.Text.quotedList` — a list of quoted texts in brackets.
-/

namespace Stencil.Text

/-- The digits of a number in base sixteen, small letters, without leading zeros. -/
def hexDigits (n : Nat) : String := String.ofList (Nat.toDigits 16 n)

/-- One character inside a quoted text. -/
def escapeChar (c : Char) : String :=
  if c = '\x00' then "\\0" else
  if c = '\t' then "\\t" else
  if c = '\n' then "\\n" else
  if c = '\r' then "\\r" else
  if c = '"' then "\\\"" else
  if c = '\\' then "\\\\" else
  if standsAlone c then c.toString else
  "\\u\x7b" ++ hexDigits c.toNat ++ "\x7d"

/-- **A text in quotes,** every character visible. -/
def quoted (s : String) : String :=
  "\"" ++ String.join (s.toList.map escapeChar) ++ "\""

/-- Quoted texts in brackets, separated by a comma and a space. -/
def quotedList (ss : List String) : String :=
  "[" ++ ", ".intercalate (ss.map quoted) ++ "]"

end Stencil.Text
