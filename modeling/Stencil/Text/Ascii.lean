set_option autoImplicit false

/-!
# ASCII letter case

Several comparisons ignore the case of the 26 letters of ASCII and of nothing else: `É` and `é`
stay different.

## Main definitions

* `Stencil.Text.lowerAscii`, `Stencil.Text.upperAscii` — the case maps of ASCII on texts.
* `Stencil.Text.eqIgnoringCase` — equality up to the case of ASCII letters.
-/

namespace Stencil.Text

/-- The text with `A` to `Z` made small. -/
def lowerAscii (s : List Char) : List Char := s.map Char.toLower

/-- The text with `a` to `z` made capital. -/
def upperAscii (s : List Char) : List Char := s.map Char.toUpper

/-- Equality up to the case of ASCII letters. -/
def eqIgnoringCase (s t : List Char) : Bool := lowerAscii s == lowerAscii t

/-- Texts equal up to case have the same length. -/
theorem length_eq_of_eqIgnoringCase {s t : List Char} (h : eqIgnoringCase s t = true) :
    s.length = t.length := by
  have h' : lowerAscii s = lowerAscii t := by simpa [eqIgnoringCase] using h
  simpa [lowerAscii] using congrArg List.length h'

end Stencil.Text
