import Stencil.Number.Reading
set_option autoImplicit false

/-!
# Numbers of Lua

A number is a 64-bit integer or a float. A numeral is written in base ten or, behind `0x`, in base
sixteen; with a point or an exponent it is a float, and so is a decimal numeral that no integer
holds. Numerals in base sixteen without a point wrap around.

## Main definitions

* `Stencil.Lua.Number` — integers and floats.
* `Stencil.Lua.Number.ofNumeral?` — the number of a numeral, blanks around it allowed.
* `Stencil.Lua.Number.text` — a number as text.
* `Stencil.Lua.Number.toInteger?` — the integer that a number is.
-/

namespace Stencil.Lua

open Stencil.Number

/-- **Numbers.** -/
inductive Number where
  | int (n : Int64)
  | float (x : Float)

namespace Number

/-! ## Integers -/

/-- Whether an integer has 64 bits. -/
def fits (n : Int) : Bool := Int64.minValue.toInt ≤ n && n ≤ Int64.maxValue.toInt

/-- The integer of 64 bits that an integer is. -/
def ofInt? (n : Int) : Option Int64 := if fits n then some (Int64.ofInt n) else none

/-! ## Numerals -/

/-- The blanks of ASCII. -/
def isSpace (c : Char) : Bool := c == ' ' || ('\t' ≤ c && c ≤ '\r')

/-- A text without blanks around it. -/
def strip (s : List Char) : List Char :=
  ((s.dropWhile isSpace).reverse.dropWhile isSpace).reverse

/-- A sign and what follows it. -/
def splitSign : List Char → Bool × List Char
  | '-' :: s => (true, s)
  | '+' :: s => (false, s)
  | s => (false, s)

/-- The digits in base sixteen behind the mark of that base. -/
def hexBody : List Char → Option (List Char)
  | '0' :: 'x' :: s | '0' :: 'X' :: s => some s
  | _ => none

/-- The digits before a point, those behind it, and what is left. -/
def splitPoint (base : Nat) (s : List Char) : List Char × List Char × List Char :=
  let whole := s.takeWhile (isDigitOf base)
  match s.dropWhile (isDigitOf base) with
  | '.' :: t => (whole, t.takeWhile (isDigitOf base), t.dropWhile (isDigitOf base))
  | t => (whole, [], t)

/-- The exponent that a text is, behind one of two marks; the empty text is the exponent zero. -/
def exponent? (small capital : Char) : List Char → Option Int
  | [] => some 0
  | c :: s =>
    if c = small ∨ c = capital then
      let (negative, ds) := splitSign s
      if ds.isEmpty ∨ ¬ ds.all (isDigitOf 10) then none
      else
        let n : Int := natOfDigits 10 ds
        some (if negative then -n else n)
    else none

/-- The integer of a numeral without a sign. In base ten it must fit; the sign admits one more on
the negative side. -/
def integerBody? (negative : Bool) (s : List Char) : Option Int64 :=
  match hexBody s with
  | some ds =>
    if ds.isEmpty ∨ ¬ ds.all (isDigitOf 16) then none
    else
      let n := Int64.ofNat (natOfDigits 16 ds)
      some (if negative then -n else n)
  | none =>
    if s.isEmpty ∨ ¬ s.all (isDigitOf 10) then none
    else
      let n : Int := natOfDigits 10 s
      ofInt? (if negative then -n else n)

/-- The float nearest to `m · 2 ^ e` for a whole number `m`. Far outside the range of floats the
answer is known without any arithmetic. Of a long `m` the first 61 bits count, the last of them
set if any bit behind is. -/
def ofBinary (m : Nat) (e : Int) : Float :=
  let size : Int := m.log2 + 1 + e
  if m = 0 ∨ size < -1200 then 0.0
  else if 1200 < size then 1.0 / 0.0
  else
    let extra := m.log2 - 60
    let first := if m % (1 <<< extra) = 0 then m >>> extra else m >>> extra ||| 1
    (Float.ofNat first).scaleB (e + extra)

/-- The float of a numeral without a sign. -/
def floatBody? (s : List Char) : Option Float :=
  match hexBody s with
  | some ds =>
    let (whole, fraction, rest) := splitPoint 16 ds
    if whole.isEmpty ∧ fraction.isEmpty then none
    else (exponent? 'p' 'P' rest).map fun e =>
      ofBinary (natOfDigits 16 (whole ++ fraction)) (e - 4 * fraction.length)
  | none =>
    let (whole, fraction, rest) := splitPoint 10 s
    if whole.isEmpty ∧ fraction.isEmpty then none
    else (exponent? 'e' 'E' rest).map fun e => ofDecimalDigits whole fraction e

/-- **The number of a numeral.** -/
def ofNumeral? (s : List Char) : Option Number :=
  let (negative, body) := splitSign (strip s)
  match integerBody? negative body with
  | some n => some (.int n)
  | none => (floatBody? body).map fun x => .float (if negative then -x else x)

/-! ## Text -/

/-- Whether a text could be the text of an integer. -/
def looksWhole (s : List Char) : Bool := s.all fun c => c.isDigit || c == '-'

/-- **A number as text.** Floats have fourteen digits, and a fraction where they would look like
an integer. -/
def text : Number → List Char
  | int n => (toString n.toInt).toList
  | float x =>
    let s := general 14 x
    if looksWhole s then s ++ ['.', '0'] else s

/-! ## Between integers and floats -/

/-- The float of a number. -/
def toFloat : Number → Float
  | int n => Float.ofInt n.toInt
  | float x => x

/-- **The integer that a number is,** if it is one. -/
def toInteger? : Number → Option Int64
  | int n => some n
  | float x => (exactInt? x).bind ofInt?

end Number

end Stencil.Lua
