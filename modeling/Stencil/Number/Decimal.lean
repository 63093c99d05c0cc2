import Stencil.Number.Binary64
set_option autoImplicit false

/-!
# Decimal text of numbers

A float is written with a given number of decimals or of significant digits. The digits are those
of the exact value, rounded once, to the nearest and on a tie to the even digit.

## Main definitions

* `Stencil.Number.roundDiv` — a quotient rounded to the nearest whole number.
* `Stencil.Number.fixed` — a float with a given number of decimals.
* `Stencil.Number.scientific` — one digit before the point, and an exponent.
* `Stencil.Number.general` — a given number of significant digits, whichever form is shorter.

## Main results

* `Stencil.Number.roundDiv_near` — the rounded quotient is within one half.
-/

namespace Stencil.Number

/-! ## Rounding -/

/-- **The whole number nearest to `num / den`;** on a tie, the even one. -/
def roundDiv (num den : Nat) : Nat :=
  let q := num / den
  let r := num % den
  if 2 * r < den then q
  else if den < 2 * r then q + 1
  else if q % 2 = 0 then q else q + 1

/-- The rounded quotient is within one half of the quotient. -/
theorem roundDiv_near (num den : Nat) (hd : 0 < den) :
    2 * num ≤ (2 * roundDiv num den + 1) * den ∧ (2 * roundDiv num den) * den ≤ 2 * num + den := by
  have e := Nat.div_add_mod num den
  have hr := Nat.mod_lt num hd
  rw [Nat.mul_comm] at e
  generalize hq : num / den = q at *
  generalize hm : num % den = r at *
  unfold roundDiv
  rw [hq, hm]
  dsimp only
  have k1 : (2 * q + 1) * den = 2 * (q * den) + den := by
    rw [Nat.add_mul, Nat.mul_assoc, Nat.one_mul]
  have k2 : (2 * q) * den = 2 * (q * den) := Nat.mul_assoc _ _ _
  have k3 : (2 * (q + 1) + 1) * den = 2 * (q * den) + 3 * den := by
    rw [Nat.add_mul, Nat.mul_add, Nat.add_mul, Nat.mul_assoc]; omega
  have k4 : (2 * (q + 1)) * den = 2 * (q * den) + 2 * den := by
    rw [Nat.mul_add, Nat.add_mul, Nat.mul_assoc]
  split
  · omega
  · split
    · omega
    · split <;> omega

/-! ## Digits -/

/-- The decimal digits of a whole number. -/
def digits (n : Nat) : List Char := Nat.toDigits 10 n

/-- A text filled with leading zeros up to a length. -/
def zeroFill (width : Nat) (s : List Char) : List Char :=
  List.replicate (width - s.length) '0' ++ s

/-- A text without trailing zeros. -/
def dropTrailingZeros (s : List Char) : List Char := (s.reverse.dropWhile (· == '0')).reverse

/-- The power of ten with an exponent. -/
def tenTo (n : Nat) : Nat := Nat.pow 10 n

/-- The exact value `mantissa · 2 ^ exponent` as a quotient. -/
def quotient (mantissa : Nat) (exponent : Int) : Nat × Nat :=
  if 0 ≤ exponent then (mantissa <<< exponent.toNat, 1) else (mantissa, 1 <<< (-exponent).toNat)

/-- The decimal exponent of a positive quotient: the `k` with `10 ^ k ≤ num / den < 10 ^ (k + 1)`.
The lengths of the two numbers leave two candidates. -/
def decimalExponent (num den : Nat) : Int :=
  let k : Int := (digits num).length - (digits den).length
  let atLeast := if 0 ≤ k then den * tenTo k.toNat ≤ num else den ≤ num * tenTo (-k).toNat
  if atLeast then k else k - 1

/-- **The first significant digits** of a positive quotient, as a whole number with exactly that
many digits, and the decimal exponent of the rounded value. -/
def significant (count num den : Nat) : Nat × Int :=
  let k := decimalExponent num den
  let shift : Int := (count : Int) - 1 - k
  let n := if 0 ≤ shift then roundDiv (num * tenTo shift.toNat) den
    else roundDiv num (den * tenTo (-shift).toNat)
  if n = tenTo count then (tenTo (count - 1), k + 1) else (n, k)

/-! ## Forms -/

/-- The text of infinities and of no number. -/
def specialText : Binary64 → List Char
  | .nan => "-nan".toList
  | .infinite true => "-inf".toList
  | .infinite false => "inf".toList
  | .finite .. => []

/-- A sign before the digits. -/
def signed (negative : Bool) (s : List Char) : List Char := if negative then '-' :: s else s

/-- Digits with a point before the last `places` of them. -/
def withPoint (places : Nat) (s : List Char) : List Char :=
  let s := zeroFill (places + 1) s
  let whole := s.take (s.length - places)
  if places = 0 then whole else whole ++ '.' :: s.drop (s.length - places)

/-- **A float with a given number of decimals.** -/
def fixed (places : Nat) (x : Float) : List Char :=
  match Binary64.ofFloat x with
  | .finite negative m e =>
    let (num, den) := quotient m e
    signed negative (withPoint places (digits (roundDiv (num * tenTo places) den)))
  | special => specialText special

/-- An exponent: its sign and at least two digits. -/
def exponentText (k : Int) : List Char :=
  'e' :: (if k < 0 then '-' else '+') :: zeroFill 2 (digits k.natAbs)

/-- **A float with one digit before the point** and a given number behind it. -/
def scientific (places : Nat) (x : Float) : List Char :=
  match Binary64.ofFloat x with
  | .finite negative m e =>
    let (num, den) := quotient m e
    let (n, k) := if m = 0 then (0, 0) else significant (places + 1) num den
    signed negative (withPoint places (zeroFill (places + 1) (digits n)) ++ exponentText k)
  | special => specialText special

/-- The digits behind a point without trailing zeros, and without the point if none is left. -/
def trimFraction (s : List Char) : List Char :=
  if s.contains '.' then
    let s := dropTrailingZeros s
    if s.getLast? = some '.' then s.dropLast else s
  else s

/-- **A float with a given number of significant digits,** trailing zeros dropped; the exponent
is written where it is below -4 or leaves zeros before the point. -/
def general (count : Nat) (x : Float) : List Char :=
  let count := max count 1
  match Binary64.ofFloat x with
  | .finite negative m e =>
    if m = 0 then signed negative ['0']
    else
      let (num, den) := quotient m e
      let (n, k) := significant count num den
      if k < -4 ∨ (count : Int) ≤ k then
        signed negative (trimFraction (withPoint (count - 1) (digits n)) ++ exponentText k)
      else
        let places := ((count : Int) - 1 - k).toNat
        signed negative (trimFraction (withPoint places (digits n)))
  | special => specialText special

end Stencil.Number
