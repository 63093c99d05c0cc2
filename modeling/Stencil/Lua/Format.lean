import Stencil.Lua.Argument
set_option autoImplicit false

/-!
# Formatted strings

A format is a text with directives, each of which takes one argument: a percent sign, flags, a
width, a precision and a letter.

## Main definitions

* `Stencil.Lua.FormatDirective` — directives, read by `FormatDirective.read`.
* `Stencil.Lua.FormatDirective.apply` — the text of a directive for an argument.
* `Stencil.Lua.formatted` — the text of a whole format.
-/

namespace Stencil.Lua

open Stencil.Number

/-- **A directive of a format.** -/
structure FormatDirective where
  flags : List Char
  width : Nat
  precision : Option Nat
  letter : Char

namespace FormatDirective

/-- Up to two digits as a number, and what follows them. -/
def twoDigits (s : List Char) : Nat × List Char :=
  let ds := (s.take 2).takeWhile Char.isDigit
  (natOfDigits 10 ds, s.drop ds.length)

/-- The directive behind a percent sign, and what follows it. -/
def read (s : List Char) : Option (FormatDirective × List Char) :=
  let flags := s.takeWhile fun c => "-+ #0".toList.contains c
  let (width, rest) := twoDigits (s.drop flags.length)
  let (precision, rest) := match rest with
    | '.' :: rest =>
      let (n, rest) := twoDigits rest
      (some n, rest)
    | _ => (none, rest)
  match rest with
  | c :: rest => if c.isAlpha then some (⟨flags, width, precision, c⟩, rest) else none
  | [] => none

/-- Whether a flag is set. -/
def has (d : FormatDirective) (flag : Char) : Bool := d.flags.contains flag

/-- A text made as wide as asked for: with spaces behind it, zeros behind its sign, or spaces in
front of it. -/
def pad (d : FormatDirective) (zeros : Bool) (sign body : List Char) : List Char :=
  let missing := d.width - (sign.length + body.length)
  if d.has '-' then sign ++ body ++ List.replicate missing ' '
  else if zeros && d.has '0' then sign ++ List.replicate missing '0' ++ body
  else List.replicate missing ' ' ++ sign ++ body

/-- The sign in front of a number. -/
def sign (d : FormatDirective) (negative : Bool) : List Char :=
  if negative then ['-'] else if d.has '+' then ['+'] else if d.has ' ' then [' '] else []

/-- Digits filled up to the precision. At precision zero, zero has none. -/
def precise (d : FormatDirective) (ds : List Char) : List Char :=
  match d.precision with
  | some 0 => if ds = ['0'] then [] else ds
  | some n => zeroFill n ds
  | none => ds

/-- An integer in base ten. -/
def decimal (d : FormatDirective) (n : Int) : List Char :=
  d.pad d.precision.isNone (d.sign (n < 0)) (d.precise (digits n.natAbs))

/-- An integer as an unsigned number in another base. -/
def unsigned (d : FormatDirective) (base : Nat) (mark : List Char) (n : Int) : List Char :=
  let bits := (n % UInt64.size).toNat
  let ds := d.precise (Nat.toDigits base bits)
  d.pad d.precision.isNone (if d.has '#' && bits != 0 then mark else []) ds

/-- A float in one of the three forms. -/
def real (d : FormatDirective) (x : Float) : List Char :=
  let places := d.precision.getD 6
  let text := match d.letter.toLower with
    | 'f' => fixed places x
    | 'e' => scientific places x
    | _ => general places x
  let (negative, body) := match text with
    | '-' :: body => (true, body)
    | body => (false, body)
  d.pad x.isFinite (d.sign negative) (if d.letter.isUpper then body.map Char.toUpper else body)

/-- A byte string padded with spaces. -/
def padBytes (d : FormatDirective) (b : Bytes) : Bytes :=
  let spaces := List.replicate (d.width - b.length) (Bytes.byteOf ' ')
  if d.has '-' then b ++ spaces else spaces ++ b

/-- One byte of a string literal, before another. -/
def quoteByte (next : Option UInt8) (b : UInt8) : List Char :=
  let c := Char.ofNat b.toNat
  if c = '"' then ['\\', '"'] else
  if c = '\\' then ['\\', '\\'] else
  if c = '\n' then ['\\', '\n'] else
  if b < 32 ∨ b = 127 then
    let ds := digits b.toNat
    let digitFollows := (next.map fun u => (Char.ofNat u.toNat).isDigit).getD false
    '\\' :: if digitFollows then zeroFill 3 ds else ds
  else [c]

/-- The bytes of a string literal behind its opening quote. -/
def quoteBytes : Bytes → Bytes
  | [] => [Bytes.byteOf '"']
  | b :: rest =>
    (quoteByte rest.head? b).map (fun c => if c.toNat < 256 then Bytes.byteOf c else b) ++
      quoteBytes rest

/-- A value as a literal of the language. -/
def literal : Value → Option Bytes
  | .string b => some (Bytes.byteOf '"' :: quoteBytes b)
  | .number (.float x) => some (Bytes.ofChars (general 17 x))
  | v@(.number (.int _)) | v@.nil | v@(.bool _) => some v.display
  | _ => none

/-- **The text of a directive** for the argument of a number. -/
def apply (d : FormatDirective) (args : Arguments) (n : Nat) : Except Objection Bytes := do
  let _ ← args.any n
  match d.letter with
  | 'd' | 'i' => return Bytes.ofChars (d.decimal (← args.integer n))
  | 'u' => return Bytes.ofChars (d.unsigned 10 [] (← args.integer n))
  | 'o' => return Bytes.ofChars (d.unsigned 8 ['0'] (← args.integer n))
  | 'x' => return Bytes.ofChars (d.unsigned 16 ['0', 'x'] (← args.integer n))
  | 'X' =>
    return Bytes.ofChars ((d.unsigned 16 ['0', 'x'] (← args.integer n)).map Char.toUpper)
  | 'c' => return d.padBytes [(← args.integer n).toNat.toUInt8]
  | 'f' | 'F' | 'e' | 'E' | 'g' | 'G' => return Bytes.ofChars (d.real (← args.float n))
  | 's' =>
    let b := (args.value n).display
    return d.padBytes ((d.precision.map b.take).getD b)
  | 'q' => match literal (args.value n) with
    | some b => return b
    | none => .error (.argument n "value has no literal form")
  | c => .error (.other s!"invalid conversion '%{c}' to 'format'")

end FormatDirective

/-- The text of a format from the argument of a number on, at most `fuel` characters of it. -/
def formattedFrom (args : Arguments) : Nat → Nat → List Char → Except Objection Bytes
  | 0, _, _ | _, _, [] => .ok []
  | fuel + 1, n, '%' :: '%' :: s => (formattedFrom args fuel n s).map (Bytes.byteOf '%' :: ·)
  | fuel + 1, n, '%' :: s => match FormatDirective.read s with
    | none => .error (.other "invalid conversion to 'format'")
    | some (d, s) => do
      let b ← d.apply args n
      let rest ← formattedFrom args fuel (n + 1) s
      return b ++ rest
  | fuel + 1, n, c :: s => (formattedFrom args fuel n s).map (Bytes.byteOf c :: ·)

/-- **The text of a format** with the arguments behind it. -/
def formatted (args : Arguments) : Except Objection Bytes := do
  let b ← args.bytes 1
  formattedFrom args b.length 2 (Bytes.numbered b)

end Stencil.Lua
