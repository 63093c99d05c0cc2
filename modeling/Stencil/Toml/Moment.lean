import Stencil.Number.Reading
set_option autoImplicit false

/-!
# Points in time

Dates, times of day, and both together with or without an offset, by the profile of TOML: the
fields have fixed widths and must name a real day and a real time; a leap second is allowed.

## Main definitions

* `Stencil.Toml.readDate`, `readTime`, `readOffset` — the fields, each with its normal text.
* `Stencil.Toml.readMoment` — a point in time.
-/

namespace Stencil.Toml

/-- A field of `n` digits with its number, and the text behind it. -/
def readField (n : Nat) (s : List Char) : Option (Nat × List Char) :=
  let ds := s.take n
  if ds.length = n ∧ ds.all Char.isDigit then some (Number.natOfDigits 10 ds, s.drop n) else none

/-- The number of days of a month. -/
def daysOf (year month : Nat) : Nat :=
  if month = 2 then
    if year % 4 = 0 ∧ (year % 100 ≠ 0 ∨ year % 400 = 0) then 29 else 28
  else if month ∈ [4, 6, 9, 11] then 30 else 31

/-- A number with at least `n` digits. -/
def field (n value : Nat) : List Char := Number.zeroFill n (Number.digits value)

/-- **A date:** year, month and day. -/
def readDate (s : List Char) : Option (List Char × List Char) :=
  match readField 4 s with
  | some (year, '-' :: s) => match readField 2 s with
    | some (month, '-' :: s) => match readField 2 s with
      | some (day, s) =>
        if 1 ≤ month ∧ month ≤ 12 ∧ 1 ≤ day ∧ day ≤ daysOf year month then
          some (field 4 year ++ '-' :: field 2 month ++ '-' :: field 2 day, s)
        else none
      | none => none
    | _ => none
  | _ => none

/-- The fraction of a second, to nine digits and without trailing zeros. -/
def readFraction : List Char → Option (List Char × List Char)
  | '.' :: s =>
    let ds := s.takeWhile Char.isDigit
    if ds.isEmpty then none
    else
      let kept := Number.dropTrailingZeros (ds.take 9)
      some (if kept.isEmpty then [] else '.' :: kept, s.dropWhile Char.isDigit)
  | s => some ([], s)

/-- **A time of day:** hour, minute and second. -/
def readTime (s : List Char) : Option (List Char × List Char) :=
  match readField 2 s with
  | some (hour, ':' :: s) => match readField 2 s with
    | some (minute, ':' :: s) => match readField 2 s with
      | some (second, s) =>
        if hour ≤ 23 ∧ minute ≤ 59 ∧ second ≤ 60 then
          (readFraction s).map fun (fraction, s) =>
            (field 2 hour ++ ':' :: field 2 minute ++ ':' :: field 2 second ++ fraction, s)
        else none
      | none => none
    | _ => none
  | _ => none

/-- **An offset:** none, the zero meridian, or hours and minutes. -/
def readOffset : List Char → Option (List Char × List Char)
  | 'Z' :: s => some (['Z'], s)
  | 'z' :: s => some (['Z'], s)
  | c :: s =>
    if c = '+' ∨ c = '-' then
      match readField 2 s with
      | some (hour, ':' :: s) => match readField 2 s with
        | some (minute, s) =>
          if hour ≤ 23 ∧ minute ≤ 59 then
            let sign := if c = '-' ∧ (hour ≠ 0 ∨ minute ≠ 0) then '-' else '+'
            some (sign :: field 2 hour ++ ':' :: field 2 minute, s)
          else none
        | none => none
      | _ => none
    else some ([], c :: s)
  | [] => some ([], [])

/-- Whether a text begins like a point in time: four digits and a dash, or two and a colon. -/
def looksLikeMoment (s : List Char) : Bool :=
  match readField 4 s, readField 2 s with
  | some (_, '-' :: _), _ => true
  | _, some (_, ':' :: _) => true
  | _, _ => false

/-- Whether a text goes on with a time of day. -/
def continuesWithTime : List Char → Bool
  | c :: s => (c == 'T' || c == 't' || c == ' ') &&
    (match readField 2 s with
      | some (_, ':' :: _) => true
      | _ => false)
  | [] => false

/-- **A point in time,** with its normal text. -/
def readMoment (s : List Char) : Option (String × List Char) :=
  match readField 4 s with
  | some (_, '-' :: _) => do
    let (date, s) ← readDate s
    if continuesWithTime s then
      let (time, s) ← readTime s.tail
      let (offset, s) ← readOffset s
      return (String.ofList (date ++ 'T' :: time ++ offset), s)
    else return (String.ofList date, s)
  | _ => (readTime s).map fun (time, s) => (String.ofList time, s)

end Stencil.Toml
