import Stencil.Lua.Argument
import Stencil.Lua.Token
set_option autoImplicit false

/-!
# Functions on texts in UTF-8

## Main definitions

* `Stencil.Lua.decodePoint` — the code point at the front of a byte string.
* `Stencil.Lua.Utf8Function.run` — the functions.
-/

namespace Stencil.Lua

/-! ## Code points -/

/-- Whether a byte continues a sequence. -/
def isContinuation (u : UInt8) : Bool := 0x80 ≤ u && u < 0xC0

/-- The number of bytes of the sequence that a byte begins, and the bits that it holds itself. -/
def sequenceHead (u : UInt8) : Option (Nat × Nat) :=
  let n := u.toNat
  if n < 0x80 then some (1, n)
  else if n < 0xC0 then none
  else if n < 0xE0 then some (2, n - 0xC0)
  else if n < 0xF0 then some (3, n - 0xE0)
  else if n < 0xF8 then some (4, n - 0xF0)
  else if n < 0xFC then some (5, n - 0xF8)
  else if n < 0xFE then some (6, n - 0xFC)
  else none

/-- The least code point that needs a number of bytes. -/
def leastPoint : Nat → Nat
  | 2 => 0x80
  | 3 => 0x800
  | 4 => 0x10000
  | 5 => 0x200000
  | 6 => 0x4000000
  | _ => 0

/-- Whether a number is a code point of Unicode that is no half of a pair. -/
def isScalar (n : Nat) : Bool := n < 0xD800 || (0xE000 ≤ n && n < 0x110000)

/-- **The code point at the front of a byte string,** and the number of its bytes. Sequences
longer than needed are none; with `lax`, any number of 31 bits is a code point. -/
def decodePoint (lax : Bool) : Bytes → Option (Nat × Nat)
  | [] => none
  | u :: rest => match sequenceHead u with
    | none => none
    | some (length, bits) =>
      let tail := rest.take (length - 1)
      if tail.length = length - 1 ∧ tail.all isContinuation then
        let n := tail.foldl (fun n v => n * 64 + (v.toNat - 0x80)) bits
        if leastPoint length ≤ n ∧ (lax ∨ isScalar n) then some (n, length) else none
      else none

/-! ## The functions -/

/-- The number of code points that begin before a place, from another place on; or the place
where none begins. -/
def countPoints (lax : Bool) (b : Bytes) (stop : Nat) : Nat → Nat → Nat → Except Nat Nat
  | 0, _, count => .ok count
  | fuel + 1, start, count =>
    if stop ≤ start then .ok count
    else match decodePoint lax (b.drop start) with
      | some (_, n) => countPoints lax b stop fuel (start + n) (count + 1)
      | none => .error start

/-- A place in a string, from one on; negative numbers count from the end. -/
def place (length : Nat) (n : Int) : Int :=
  if 0 ≤ n then n else if n < -(length : Int) then 0 else length + 1 + n

/-- The number of code points of a part of a string. -/
def pointCount (args : Arguments) : Except Objection Arguments := do
  let b ← args.bytes 1
  let first := place b.length (← args.integerOr 2 1)
  let last := place b.length (← args.integerOr 3 (-1))
  if first < 1 ∨ (b.length : Int) + 1 < first then
    .error (.argument 2 "initial position out of bounds")
  else if (b.length : Int) < last then .error (.argument 3 "final position out of bounds")
  else match countPoints (args.value 4).truth b last.toNat (b.length + 1) (first.toNat - 1) 0 with
    | .ok n => return [.nat n]
    | .error at_ => return [.nil, .nat (at_ + 1)]

/-- The code points that begin before a place, from another place on. -/
def pointsBetween (lax : Bool) (b : Bytes) (stop : Nat) :
    Nat → Nat → Except Objection Arguments
  | 0, _ => .ok []
  | fuel + 1, start =>
    if stop ≤ start then .ok []
    else match decodePoint lax (b.drop start) with
      | some (point, n) => (pointsBetween lax b stop fuel (start + n)).map (.nat point :: ·)
      | none => .error (.other "invalid UTF-8 code")

/-- The code points of a part of a string. -/
def pointNumbers (args : Arguments) : Except Objection Arguments := do
  let b ← args.bytes 1
  let i ← args.integerOr 2 1
  let first := place b.length i
  let last := place b.length (← args.integerOr 3 first)
  if first < 1 then .error (.argument 2 "out of bounds")
  else if (b.length : Int) < last then .error (.argument 3 "out of bounds")
  else pointsBetween (args.value 4).truth b last.toNat (b.length + 1) (first.toNat - 1)

/-- The bytes for a code point. -/
def pointBytes (args : Arguments) (n : Nat) : Except Objection Bytes := do
  let i ← args.integer n
  if 0 ≤ i ∧ i < 0x80000000 then return encodePoint i.toNat
  else .error (.argument n "value out of range")

/-- The start of the character around a place. -/
def characterStart (b : Bytes) : Nat → Nat
  | 0 => 0
  | n + 1 => if (b[n + 1]?.map isContinuation).getD false then characterStart b n else n + 1

/-- The place behind the character at a place, if one begins there. -/
def characterEnd (b : Bytes) (n : Nat) : Nat :=
  n + 1 + ((b.drop (n + 1)).takeWhile isContinuation).length

/-- The place a number of characters on. -/
def forward (b : Bytes) : Nat → Nat → Option Nat
  | 0, n => some n
  | more + 1, n => if n < b.length then forward b more (characterEnd b n) else none

/-- The place a number of characters back. -/
def backward (b : Bytes) : Nat → Nat → Option Nat
  | 0, n => some n
  | more + 1, n => if 0 < n then backward b more (characterStart b (n - 1)) else none

/-- The place of a character, counted from another place. -/
def characterPlace (args : Arguments) : Except Objection Arguments := do
  let b ← args.bytes 1
  let n ← args.integer 2
  let start := place b.length
    (← args.integerOr 3 (if 0 < n then 1 else (b.length : Int) + 1))
  if start < 1 ∨ (b.length : Int) + 1 < start then
    .error (.argument 3 "position out of bounds")
  else
    let i := start.toNat - 1
    let found ←
      if n = 0 then .ok (some (characterStart b i))
      else if (b[i]?.map isContinuation).getD false then
        .error (.other "initial position is a continuation byte")
      else if 0 < n then .ok (forward b (n.toNat - 1) i)
      else .ok (backward b (-n).toNat i)
    return [match found with
      | some k => .nat (k + 1)
      | none => .nil]

/-- The code point behind the one at a place, and its place. -/
def nextPoint (args : Arguments) : Except Objection Arguments := do
  let b ← args.bytes 1
  let i ← args.integer 2
  let start := if i < 1 then 0 else characterEnd b (i.toNat - 1)
  if b.length ≤ start then return [.nil]
  else match decodePoint false (b.drop start) with
    | some (point, n) =>
      if (b[start + n]?.map isContinuation).getD false then
        .error (.other "invalid UTF-8 code")
      else return [.nat (start + 1), .nat point]
    | none => .error (.other "invalid UTF-8 code")

/-- **The functions on texts in UTF-8.** -/
def Utf8Function.apply (f : Utf8Function) (args : Arguments) : Except Objection Arguments :=
  match f with
  | .char => do
    let bs ← (List.range args.length).mapM fun i => pointBytes args (i + 1)
    return [.string bs.flatten]
  | .codepoint => pointNumbers args
  | .codes => do
    let b ← args.bytes 1
    return [.builtin (.utf8 .codesStep), .string b, .nat 0]
  | .codesStep => nextPoint args
  | .len => pointCount args
  | .offset => characterPlace args

/-- The functions on texts, as actions. -/
def Utf8Function.run (trace : Trace) (f : Utf8Function) (args : Arguments) : Run Arguments :=
  Run.check trace f.name (f.apply args)

end Stencil.Lua
