import Stencil.Number.Decimal
set_option autoImplicit false

/-!
# Reading numbers

## Main definitions

* `Stencil.Number.natOfDigits` — the whole number of digits in a base up to sixteen.
* `Stencil.Number.ofDecimal` — the float nearest to a whole number times a power of ten.
-/

namespace Stencil.Number

/-- The value of a digit in base sixteen. -/
def digitValue (c : Char) : Option Nat :=
  if '0' ≤ c ∧ c ≤ '9' then some (c.toNat - '0'.toNat)
  else if 'a' ≤ c ∧ c ≤ 'f' then some (c.toNat - 'a'.toNat + 10)
  else if 'A' ≤ c ∧ c ≤ 'F' then some (c.toNat - 'A'.toNat + 10)
  else none

/-- Whether a character is a digit of a base up to sixteen. -/
def isDigitOf (base : Nat) (c : Char) : Bool :=
  match digitValue c with
  | some n => n < base
  | none => false

/-- **The whole number of digits.** Characters that are no digits count as zero. -/
def natOfDigits (base : Nat) (s : List Char) : Nat :=
  s.foldl (fun n c => n * base + (digitValue c).getD 0) 0

/-- **The float nearest to `mantissa · 10 ^ exponent`.** Far outside the range of floats the
answer is known without any arithmetic. -/
def ofDecimal (mantissa : Nat) (exponent : Int) : Float :=
  let size : Int := (digits mantissa).length + exponent
  if mantissa = 0 ∨ size < -400 then 0.0
  else if 400 < size then 1.0 / 0.0
  else if exponent < 0 then Float.ofScientific mantissa true exponent.natAbs
  else Float.ofScientific mantissa false exponent.natAbs

/-- The float of digits before and behind a point, times a power of ten. -/
def ofDecimalDigits (whole fraction : List Char) (exponent : Int) : Float :=
  ofDecimal (natOfDigits 10 (whole ++ fraction)) (exponent - fraction.length)

end Stencil.Number
