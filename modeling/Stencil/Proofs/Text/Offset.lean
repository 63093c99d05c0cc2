import Stencil.Lua.Bytes
import Stencil.Proofs.Text.Occurrence
import Stencil.Text.Utf8
set_option autoImplicit false

/-!
# Offsets in bytes

A text that is searched byte by byte, for the bytes of a pattern, comes to the same occurrence as
one that is searched character by character: an occurrence of the bytes begins and ends with a
character. So a cut at an offset that a search gives never falls into a character.

## Main definitions

* `Stencil.Text.findBytes` — the offset of the first occurrence of some bytes.
* `Stencil.Text.offsetWhere` — the offset of the first character with a property.
* `Stencil.Text.takeBytes` — the first bytes of a text, when they end with a character.

## Main results

* `Stencil.Lua.Bytes.ofChars_isPrefix_iff` — the bytes of a text are in front of those of another
  just where the text is.
* `Stencil.Text.findBytes_ofChars` — a search by bytes gives the offset of the first occurrence.
* `Stencil.Text.takeBytes_append` — a cut between characters gives what is in front of it.
-/

namespace Stencil

/-! ## The bytes of a character -/

namespace Lua.Bytes

/-- The bytes of a text, character by character. -/
theorem ofChars_cons (c : Char) (s : List Char) :
    ofChars (c :: s) = String.utf8EncodeChar c ++ ofChars s := rfl

/-- Only the first byte of a character begins one. -/
theorem exists_encode_eq_cons (c : Char) :
    ∃ first more, String.utf8EncodeChar c = first :: more ∧ first.IsUTF8FirstByte ∧
      ∀ b ∈ more, ¬ b.IsUTF8FirstByte := by
  obtain ⟨first, more, heq⟩ := List.exists_cons_of_ne_nil (String.utf8EncodeChar_ne_nil (c := c))
  have hbegins : ∀ (i : Nat) (hi : i < (String.utf8EncodeChar c).length),
      (String.utf8EncodeChar c)[i].IsUTF8FirstByte ↔ i = 0 :=
    fun i hi => UInt8.isUTF8FirstByte_getElem_utf8EncodeChar
  simp only [heq] at hbegins
  refine ⟨first, more, heq, (hbegins 0 (by simp)).mpr rfl, fun b hb => ?_⟩
  obtain ⟨i, hi, rfl⟩ := List.mem_iff_getElem.mp hb
  exact fun h => absurd ((hbegins (i + 1) (by simpa using hi)).mp h) (Nat.succ_ne_zero i)

/-- **A character is told by its bytes,** whatever follows them. -/
theorem encode_append_inj {c d : Char} {u v : Bytes}
    (h : String.utf8EncodeChar c ++ u = String.utf8EncodeChar d ++ v) : c = d ∧ u = v := by
  have hdecode (c : Char) (u : Bytes) :
      (String.utf8EncodeChar c ++ u).toByteArray.utf8DecodeChar? 0 = some c := by
    rw [List.toByteArray_append]
    exact ByteArray.utf8DecodeChar?_utf8EncodeChar_append
  obtain rfl : c = d := Option.some.inj ((hdecode c u).symm.trans (h ▸ hdecode d v))
  exact ⟨rfl, List.append_cancel_left h⟩

/-- **The bytes of a text are in front of those of another just where the text is.** -/
theorem ofChars_isPrefix_iff {s t : List Char} : ofChars s <+: ofChars t ↔ s <+: t := by
  induction s generalizing t with
  | nil => exact ⟨fun _ => List.nil_prefix, fun _ => List.nil_prefix⟩
  | cons c s ih =>
    cases t with
    | nil => simp [ofChars]
    | cons d t =>
      rw [List.cons_prefix_cons, ofChars_cons, ofChars_cons]
      constructor
      · rintro ⟨rest, hrest⟩
        rw [List.append_assoc] at hrest
        obtain ⟨rfl, hbytes⟩ := encode_append_inj hrest
        exact ⟨rfl, ih.mp ⟨rest, hbytes⟩⟩
      · rintro ⟨rfl, h⟩
        exact (List.prefix_append_right_inj _).mpr (ih.mpr h)

end Lua.Bytes

namespace Text

open Lua (Bytes)

/-! ## Searching by bytes -/

/-- **The offset of the first occurrence** of some bytes in others. -/
def findBytes (pattern : Bytes) : Bytes → Option Nat
  | [] => if pattern.isEmpty then some 0 else none
  | b :: rest =>
    if pattern.isPrefixOf (b :: rest) then some 0 else (findBytes pattern rest).map (· + 1)

/-- Bytes that begin no character are passed over in a search for a text. -/
theorem findBytes_append {first : UInt8} {more : Bytes} (pattern rest : Bytes)
    (hfirst : first.IsUTF8FirstByte) (hmore : ∀ b ∈ more, ¬ b.IsUTF8FirstByte) :
    findBytes (first :: pattern) (more ++ rest) =
      (findBytes (first :: pattern) rest).map (· + more.length) := by
  induction more with
  | nil => simp
  | cons b more ih =>
    rw [List.forall_mem_cons] at hmore
    have hne : (first == b) = false := beq_eq_false_iff_ne.mpr fun h => hmore.1 (h ▸ hfirst)
    rw [List.cons_append, findBytes, List.isPrefixOf_cons_cons, hne, ih hmore.2, Option.map_map]
    rfl

/-- **A search by bytes gives the offset of the first occurrence** among the characters. -/
theorem findBytes_ofChars {pattern : List Char} (hpattern : pattern ≠ []) (s : List Char) :
    findBytes (Bytes.ofChars pattern) (Bytes.ofChars s) =
      (findText pattern s).map fun found => utf8Length found.1 := by
  obtain ⟨p, ps, rfl⟩ := List.exists_cons_of_ne_nil hpattern
  obtain ⟨first, others, hp, hfirst, -⟩ := Bytes.exists_encode_eq_cons p
  have hbytes : Bytes.ofChars (p :: ps) = first :: (others ++ Bytes.ofChars ps) := by
    rw [Bytes.ofChars_cons, hp, List.cons_append]
  induction s with
  | nil =>
    rw [hbytes]
    rfl
  | cons c s ih =>
    obtain ⟨b, more, hc, -, hmore⟩ := Bytes.exists_encode_eq_cons c
    have hsize : c.utf8Size = more.length + 1 := by
      rw [← String.length_utf8EncodeChar, hc, List.length_cons]
    have hprefix : (Bytes.ofChars (p :: ps)).isPrefixOf (b :: (more ++ Bytes.ofChars s)) =
        (p :: ps).isPrefixOf (c :: s) := by
      rw [Bool.eq_iff_iff, List.isPrefixOf_iff_prefix, List.isPrefixOf_iff_prefix,
        ← Bytes.ofChars_isPrefix_iff, Bytes.ofChars_cons c, hc, List.cons_append]
    rw [Bytes.ofChars_cons c, hc, List.cons_append, findBytes, hprefix, findText]
    split
    · rfl
    · -- What remains of the character begins none, so the search goes on behind it.
      have hskip := findBytes_append (others ++ Bytes.ofChars ps) (Bytes.ofChars s) hfirst hmore
      rw [← hbytes, ih] at hskip
      rw [hskip]
      simp only [Option.map_map]
      congr 1
      funext found
      simp only [Function.comp, utf8Length_cons, hsize]
      omega

/-- **The offset of the first character with a property.** -/
def offsetWhere (p : Char → Bool) : List Char → Option Nat
  | [] => none
  | c :: s => if p c then some 0 else (offsetWhere p s).map (· + c.utf8Size)

/-- The characters in front of that offset are those before the first with the property. -/
theorem getD_offsetWhere (p : Char → Bool) (s : List Char) :
    (offsetWhere (fun c => !p c) s).getD (utf8Length s) = utf8Length (s.takeWhile p) := by
  induction s with
  | nil => rfl
  | cons c s ih =>
    rw [offsetWhere, List.takeWhile_cons]
    cases hc : p c with
    | false => simp
    | true =>
      cases hrest : offsetWhere (fun c => !p c) s with
      | none => simpa [hrest] using ih
      | some n =>
        rw [hrest, Option.getD_some] at ih
        simp [ih, Nat.add_comm]

/-! ## Cutting at an offset -/

/-- The first `n` bytes of a text; none if it is shorter, or if a character straddles the cut. -/
def takeBytes (n : Nat) (s : List Char) : Option (List Char) :=
  (dropBytes n s).map fun rest => s.take (s.length - rest.length)

/-- A cut between characters gives what is in front of it. -/
theorem takeBytes_append (u v : List Char) : takeBytes (utf8Length u) (u ++ v) = some u := by
  rw [takeBytes, dropBytes_append, Option.map_some, List.length_append, Nat.add_sub_cancel,
    List.take_left]

end Text

end Stencil
