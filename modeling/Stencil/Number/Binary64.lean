set_option autoImplicit false

/-!
# Floating-point numbers as exact values

A finite number is a whole number times a power of two. Text is made from that exact value, and
never through an approximation.

## Main definitions

* `Stencil.Number.Binary64` — what a float stands for.
* `Stencil.Number.Binary64.ofFloat` — its reading from the bit pattern.
* `Stencil.Number.floorInt?`, `exactInt?` — whole numbers near and at a float.
* `Stencil.Number.remainder` — the exact remainder of a truncated division.
-/

namespace Stencil.Number

/-- **What a float stands for.** -/
inductive Binary64 where
  | nan
  | infinite (negative : Bool)
  /-- The number `mantissa · 2 ^ exponent`, with its sign. -/
  | finite (negative : Bool) (mantissa : Nat) (exponent : Int)
  deriving DecidableEq, Repr

namespace Binary64

/-- **The reading of a bit pattern:** one sign bit, eleven bits of exponent, 52 of mantissa. -/
def ofFloat (x : Float) : Binary64 :=
  let bits := x.toBits.toNat
  let negative := bits >>> 63 == 1
  let biased : Nat := (bits >>> 52) % 0x800
  let fraction : Nat := bits % (1 <<< 52)
  if biased = 2047 then if fraction = 0 then infinite negative else nan
  else if biased = 0 then finite negative fraction (-1074)
  else finite negative (fraction + (1 <<< 52)) ((biased : Int) - 1075)

/-- The whole number at or below `mantissa · 2 ^ exponent`. -/
def wholePart (mantissa : Nat) (exponent : Int) : Nat :=
  if 0 ≤ exponent then mantissa <<< exponent.toNat else mantissa >>> (-exponent).toNat

/-- Whether `mantissa · 2 ^ exponent` is a whole number. -/
def isWhole (mantissa : Nat) (exponent : Int) : Bool :=
  decide (0 ≤ exponent) || decide (mantissa % (1 <<< (-exponent).toNat) = 0)

end Binary64

/-- The greatest whole number at or below a float; none for infinities and for no number. -/
def floorInt? (x : Float) : Option Int :=
  match Binary64.ofFloat x with
  | .finite false m e => some (Binary64.wholePart m e)
  | .finite true m e =>
    let w : Int := Binary64.wholePart m e
    some (if Binary64.isWhole m e then -w else -w - 1)
  | _ => none

/-- The whole number that a float is, if it is one. -/
def exactInt? (x : Float) : Option Int :=
  match Binary64.ofFloat x with
  | .finite negative m e =>
    if Binary64.isWhole m e then
      let w : Int := Binary64.wholePart m e
      some (if negative then -w else w)
    else none
  | _ => none

/-- **The exact remainder** of `x` by `y`, with the sign of `x`. Both are multiples of the
smaller of their two powers of two, and so is the remainder, which is therefore a float. -/
def remainder (x y : Float) : Float :=
  match Binary64.ofFloat x, Binary64.ofFloat y with
  | .finite negative m e, .finite _ n f =>
    if n = 0 then 0.0 / 0.0
    else
      let low := min e f
      let r := (m <<< (e - low).toNat) % (n <<< (f - low).toNat)
      let magnitude := (Float.ofNat r).scaleB low
      if negative then -magnitude else magnitude
  | .finite .., .infinite _ => x
  | _, _ => 0.0 / 0.0

end Stencil.Number
