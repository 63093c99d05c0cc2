import Stencil.Json.Basic
import Stencil.NameMap
set_option autoImplicit false

/-!
# Reading trees of data

The text of a tree by the grammar of JSON: four kinds of blanks, no comments, no trailing commas,
no leading zeros, no lone surrogates. Tables keep the last value of a key and list their keys in
ascending order. Nesting is limited.

## Main definitions

* `Stencil.Json.readString` — a string, from behind its opening quote.
* `Stencil.Json.readNumber` — a number.
* `Stencil.Json.readValue` — a tree at the head of a text.
* `Stencil.Json.parse` — a whole text.
-/

namespace Stencil.Json

/-! ## Strings -/

/-- The value of a digit in base sixteen. -/
def hexValue (c : Char) : Option Nat :=
  if c.isDigit then some (c.toNat - '0'.toNat)
  else if 'a' ≤ c ∧ c ≤ 'f' then some (c.toNat - 'a'.toNat + 10)
  else if 'A' ≤ c ∧ c ≤ 'F' then some (c.toNat - 'A'.toNat + 10)
  else none

/-- The number of four digits in base sixteen. -/
def hexQuad (a b c d : Char) : Option Nat := do
  return ((← hexValue a) * 16 + (← hexValue b)) * 256 + (← hexValue c) * 16 + (← hexValue d)

/-- The character of a two-character escape. -/
def unescape : Char → Option Char
  | '"' => some '"'
  | '\\' => some '\\'
  | '/' => some '/'
  | 'b' => some '\x08'
  | 'f' => some '\x0c'
  | 'n' => some '\n'
  | 'r' => some '\r'
  | 't' => some '\t'
  | _ => none

/-- The character of a pair of surrogates. -/
def surrogatePair (high low : Nat) : Option Char :=
  if 0xD800 ≤ high ∧ high < 0xDC00 ∧ 0xDC00 ≤ low ∧ low < 0xE000 then
    some (Char.ofNat (0x10000 + (high - 0xD800) * 0x400 + (low - 0xDC00)))
  else none

/-- The character of a code unit that is no surrogate. -/
def loneUnit (n : Nat) : Option Char :=
  if 0xD800 ≤ n ∧ n < 0xE000 then none else some (Char.ofNat n)

/-- **A string,** from behind its opening quote, and the text behind its closing one. -/
def readString : List Char → Option (List Char × List Char)
  | [] => none
  | '"' :: rest => some ([], rest)
  | '\\' :: 'u' :: a :: b :: c :: d :: rest => do
    let n ← hexQuad a b c d
    match loneUnit n with
    | some ch =>
      let (s, rest) ← readString rest
      return (ch :: s, rest)
    | none => match rest with
      | '\\' :: 'u' :: a :: b :: c :: d :: rest =>
        let ch ← surrogatePair n (← hexQuad a b c d)
        let (s, rest) ← readString rest
        return (ch :: s, rest)
      | _ => none
  | '\\' :: e :: rest => do
    let ch ← unescape e
    let (s, rest) ← readString rest
    return (ch :: s, rest)
  | c :: rest =>
    if c.toNat < 0x20 then none
    else do
      let (s, rest) ← readString rest
      return (c :: s, rest)

/-- A plain character is read as it stands. -/
theorem readString_plain {c : Char} (hquote : c ≠ '"') (hslash : c ≠ '\\')
    (hcontrol : 0x20 ≤ c.toNat) (s : List Char) :
    readString (c :: s) = (readString s).map fun (t, rest) => (c :: t, rest) := by
  rw [readString]
  · rw [if_neg (Nat.not_lt.mpr hcontrol)]
    cases readString s <;> rfl
  · exact hquote
  · rintro _ _ _ _ _ rfl -
    exact hslash rfl
  · rintro _ _ rfl -
    exact hslash rfl

/-! ## Numbers -/

/-- The greatest significand that is kept. -/
def significandLimit : Nat := UInt64.size - 1

/-- **A significand under construction:** its value, the power of ten that it still has to be
multiplied by, and whether a digit was too much for it. -/
structure Significand where
  value : Nat := 0
  exponent : Int := 0
  full : Bool := false

/-- One more digit of the whole part. A digit that does not fit counts as a zero. -/
def Significand.pushWhole (s : Significand) (d : Char) : Significand :=
  let next := s.value * 10 + (d.toNat - '0'.toNat)
  if s.full ∨ significandLimit < next then { s with exponent := s.exponent + 1, full := true }
  else { s with value := next }

/-- One more digit of the fraction. From the first digit that does not fit, all are dropped. -/
def Significand.pushFraction (s : Significand) (d : Char) : Significand :=
  let next := s.value * 10 + (d.toNat - '0'.toNat)
  if s.full ∨ significandLimit < next then { s with full := true }
  else { s with value := next, exponent := s.exponent - 1 }

/-- The float `10 ^ n`. -/
def powerOfTen (n : Nat) : Float := Float.ofScientific 1 false n

/-- **A significand times a power of ten as a float:** the rounded significand, multiplied or
divided by a rounded power of ten. Below the reach of the powers it is divided in steps, which
soon leave zero. -/
def scaleFloat : Nat → Float → Int → Option Float
  | 0, x, _ => some x
  | fuel + 1, x, e =>
    if e < -308 then
      if x == 0.0 then some x else scaleFloat fuel (x / powerOfTen 308) (e + 308)
    else if e < 0 then some (x / powerOfTen (-e).toNat)
    else if 308 < e then if x == 0.0 then some x else none
    else
      let y := x * powerOfTen e.toNat
      if y.isInf then none else some y

/-- The float of a significand and a further exponent. -/
def floatOf (negative : Bool) (s : Significand) (exponent : Int) : Option Json :=
  (scaleFloat 4 (Float.ofNat s.value) (s.exponent + exponent)).map fun x =>
    float (if negative then -x else x)

/-- The exponent of a number, if one follows, and the text behind it. -/
def readExponent : List Char → Option (Option Int × List Char)
  | c :: rest =>
    if c = 'e' ∨ c = 'E' then
      let (negative, rest) := match rest with
        | '-' :: r => (true, r)
        | '+' :: r => (false, r)
        | r => (false, r)
      let ds := rest.takeWhile Char.isDigit
      if ds.isEmpty then none
      else
        let n : Int := min (Nat.ofDigitChars 10 ds 0) 0x80000000
        some (some (if negative then -n else n), rest.dropWhile Char.isDigit)
    else some (none, c :: rest)
  | [] => some (none, [])

/-- The fraction of a number, if one follows, and the text behind it. -/
def readFraction : List Char → Option (Option (List Char) × List Char)
  | '.' :: rest =>
    let ds := rest.takeWhile Char.isDigit
    if ds.isEmpty then none else some (some ds, rest.dropWhile Char.isDigit)
  | rest => some (none, rest)

/-- **A number,** and the text behind it. Without a fraction and an exponent it is whole, if it
fits in 64 bits; a negative zero is a float. -/
def readNumber (s : List Char) : Option (Json × List Char) := do
  let (negative, s) := match s with
    | '-' :: r => (true, r)
    | r => (false, r)
  let whole := s.takeWhile Char.isDigit
  if whole.isEmpty then none
  else if whole.head? = some '0' ∧ whole ≠ ['0'] then none
  else
    let (fraction, rest) ← readFraction (s.dropWhile Char.isDigit)
    let (exponent, rest) ← readExponent rest
    let sig := whole.foldl Significand.pushWhole {}
    match fraction, exponent with
    | none, none =>
      let n : Int := if negative then -sig.value else sig.value
      if sig.full ∨ (negative ∧ sig.value = 0) ∨ n < Int64.minValue.toInt then
        return (← floatOf negative sig 0, rest)
      else return (int n, rest)
    | _, _ =>
      let sig := (fraction.getD []).foldl Significand.pushFraction sig
      return (← floatOf negative sig (exponent.getD 0), rest)

/-! ## Trees -/

/-- The text without leading blanks. -/
def skipBlanks (s : List Char) : List Char :=
  s.dropWhile fun c => c = ' ' ∨ c = '\n' ∨ c = '\t' ∨ c = '\r'

/-- Behind leading blanks there are none. -/
theorem skipBlanks_skipBlanks (s : List Char) : skipBlanks (skipBlanks s) = skipBlanks s := by
  induction s with
  | nil => rfl
  | cons c s ih =>
    unfold skipBlanks at ih ⊢
    rw [List.dropWhile_cons]
    split
    · exact ih
    · rename_i hc
      rw [List.dropWhile_cons, if_neg hc]

mutual

/-- **A tree at the head of a text,** and the text behind it. `depth` is how many more levels
may be opened. -/
def readValue : Nat → Nat → List Char → Option (Json × List Char)
  | 0, _, _ => none
  | fuel + 1, depth, s =>
    match skipBlanks s with
    | 'n' :: 'u' :: 'l' :: 'l' :: rest => some (null, rest)
    | 't' :: 'r' :: 'u' :: 'e' :: rest => some (bool true, rest)
    | 'f' :: 'a' :: 'l' :: 's' :: 'e' :: rest => some (bool false, rest)
    | '"' :: rest => (readString rest).map fun (s, rest) => (string (String.ofList s), rest)
    | '[' :: rest =>
      match depth with
      | 0 => none
      | depth + 1 =>
        match skipBlanks rest with
        | ']' :: rest => some (array [], rest)
        | rest => (readItems fuel depth rest).map fun (xs, rest) => (array xs, rest)
    | '\x7b' :: rest =>
      match depth with
      | 0 => none
      | depth + 1 =>
        match skipBlanks rest with
        | '\x7d' :: rest => some (object [], rest)
        | rest => (readEntries fuel depth [] rest).map fun (es, rest) => (object es, rest)
    | rest => readNumber rest

/-- The items of a list up to its closing bracket. -/
def readItems : Nat → Nat → List Char → Option (List Json × List Char)
  | 0, _, _ => none
  | fuel + 1, depth, s =>
    match readValue fuel depth s with
    | none => none
    | some (x, rest) =>
      match skipBlanks rest with
      | ',' :: rest => (readItems fuel depth rest).map fun (xs, rest) => (x :: xs, rest)
      | ']' :: rest => some ([x], rest)
      | _ => none

/-- The entries of a table up to its closing brace, added to those read before. -/
def readEntries : Nat → Nat → List (String × Json) → List Char →
    Option (List (String × Json) × List Char)
  | 0, _, _, _ => none
  | fuel + 1, depth, before, s =>
    match skipBlanks s with
    | '"' :: rest =>
      match readString rest with
      | none => none
      | some (key, rest) =>
        match skipBlanks rest with
        | ':' :: rest =>
          match readValue fuel depth rest with
          | none => none
          | some (value, rest) =>
            let entries := NameMap.insertEntry (String.ofList key) value before
            match skipBlanks rest with
            | ',' :: rest => readEntries fuel depth entries rest
            | '\x7d' :: rest => some (entries, rest)
            | _ => none
        | _ => none
    | _ => none

end

/-- Blanks in front of a tree do not count. -/
theorem readValue_skipBlanks (fuel depth : Nat) (s : List Char) :
    readValue fuel depth (skipBlanks s) = readValue fuel depth s := by
  cases fuel with
  | zero => rw [readValue, readValue]
  | succ fuel => rw [readValue, readValue, skipBlanks_skipBlanks]

/-- Blanks in front of a list's items do not count. -/
theorem readItems_skipBlanks (fuel depth : Nat) (s : List Char) :
    readItems fuel depth (skipBlanks s) = readItems fuel depth s := by
  cases fuel with
  | zero => rw [readItems, readItems]
  | succ fuel => rw [readItems, readItems, readValue_skipBlanks]

/-- How many levels a text may open. -/
def depthLimit : Nat := 127

/-- **The tree of a text,** if the text is one. Each step of the reader takes a character, so the
length of the text bounds the steps. -/
def parse (text : String) : Option Json :=
  match readValue (2 * text.length + 2) depthLimit text.toList with
  | some (j, rest) => if (skipBlanks rest).isEmpty then some j else none
  | none => none

end Stencil.Json
