set_option autoImplicit false

/-!
# Byte strings

Strings of Lua are sequences of bytes. A text becomes the bytes of its UTF-8 encoding; only valid
UTF-8 becomes a text again.

## Main definitions

* `Stencil.Lua.Bytes` — byte strings.
* `Stencil.Lua.Bytes.ofChars`, `toText?` — between byte strings and texts.
* `Stencil.Lua.Bytes.display` — a text for any byte string.

## Main results

* `Stencil.Lua.Bytes.toText?_ofChars` — a text comes back from its bytes.
* `Stencil.Lua.Bytes.ofText_inj` — texts are told apart by their bytes.
-/

namespace Stencil.Lua

/-- **Byte strings.** -/
abbrev Bytes := List UInt8

namespace Bytes

/-- The bytes of a text. -/
def ofChars (s : List Char) : Bytes := s.flatMap String.utf8EncodeChar

/-- The bytes of a text. -/
def ofText (s : String) : Bytes := ofChars s.toList

/-- **The text of a byte string,** if it is valid UTF-8. -/
def toText? (b : Bytes) : Option String := String.fromUTF8? ⟨b.toArray⟩

/-- A text comes back from its bytes. -/
theorem toText?_ofChars (s : List Char) : toText? (ofChars s) = some (String.ofList s) := by
  have e : (⟨(ofChars s).toArray⟩ : ByteArray) = s.utf8Encode := by
    apply ByteArray.ext
    simp [ofChars, List.utf8Encode]
  have hv : s.utf8Encode.IsValidUTF8 := .intro s rfl
  simp only [toText?, e, String.fromUTF8?, hv, dite_true, Option.some.injEq]
  apply String.toByteArray_inj.mp
  rw [String.toByteArray_ofList]
  rfl

/-- Texts with the same bytes are the same. -/
theorem ofText_inj {s t : String} : ofText s = ofText t ↔ s = t := by
  refine ⟨fun h => ?_, congrArg _⟩
  have htext (u : String) : toText? (ofText u) = some u := by
    rw [ofText, toText?_ofChars, String.ofList_toList]
  exact Option.some.inj ((htext s).symm.trans ((congrArg _ h).trans (htext t)))

/-! ## One character for each byte -/

/-- The characters with the numbers of the bytes. -/
def numbered (b : Bytes) : List Char := b.map fun u => Char.ofNat u.toNat

/-- The byte with the number of a character below 256. -/
def byteOf (c : Char) : UInt8 := c.toNat.toUInt8

/-! ## Any bytes as text -/

/-- The number of bytes of a character that begins with the given byte; none if no character
does. -/
def sequenceLength (b : UInt8) : Option Nat :=
  if b < 0x80 then some 1
  else if 0xC2 ≤ b ∧ b < 0xE0 then some 2
  else if 0xE0 ≤ b ∧ b < 0xF0 then some 3
  else if 0xF0 ≤ b ∧ b < 0xF5 then some 4
  else none

/-- Whether the second byte of a character may follow the first. -/
def mayFollow (first second : UInt8) : Bool :=
  let low := if first = 0xE0 then 0xA0 else if first = 0xF0 then 0x90 else 0x80
  let high := if first = 0xED then 0x9F else if first = 0xF4 then 0x8F else 0xBF
  low ≤ second && second ≤ high

/-- The bytes at the front that begin a character, whole or cut short; at least one. -/
def leading : Bytes → Nat
  | [] => 0
  | [_] => 1
  | first :: second :: rest =>
    match sequenceLength first with
    | none | some 1 => 1
    | some n =>
      if mayFollow first second then
        2 + ((rest.take (n - 2)).takeWhile fun b => 0x80 ≤ b && b ≤ 0xBF).length
      else 1

/-- The character that stands for bytes that are none. -/
def replacement : Char := '\uFFFD'

/-- The characters of a byte string, at most `count` of them. -/
def displayChars : Nat → Bytes → List Char
  | 0, _ | _, [] => []
  | count + 1, b@(_ :: _) =>
    let n := leading b
    let chars := match toText? (b.take n) with
      | some text => text.toList
      | none => [replacement]
    chars ++ displayChars count (b.drop n)

/-- **A text for any byte string:** bytes that are no characters are replaced, each run that
begins a character as one. -/
def display (b : Bytes) : String := String.ofList (displayChars b.length b)

end Bytes

end Stencil.Lua
