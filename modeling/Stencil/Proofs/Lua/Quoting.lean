import Stencil.Proofs.Lua.Lexing
set_option autoImplicit false

/-!
# String literals read back

The value of a quoted text is the text, whatever stands behind the literal.

## Main results

* `Stencil.Lua.readToken_quoteText` — a literal is one token, whatever follows it.
-/

namespace Stencil.Lua

/-! ## Escapes -/

/-- Three digits spell their number. -/
theorem threeDigits_spec {n : Nat} (h : n < 128) :
    (threeDigits n).all Char.isDigit = true ∧ Number.natOfDigits 10 (threeDigits n) = n := by
  have hall : ∀ m < 128, (threeDigits m).all Char.isDigit = true ∧
      Number.natOfDigits 10 (threeDigits m) = m := by
    decide
  exact hall n h

/-- The byte of a character of ASCII. -/
theorem utf8EncodeChar_of_lt {c : Char} (h : c.toNat < 128) :
    String.utf8EncodeChar c = [c.toNat.toUInt8] := by
  have hle : c.val ≤ 127 := UInt32.le_iff_toNat_le.mpr (Nat.le_of_lt_succ h)
  rw [String.utf8EncodeChar_eq_singleton (by simp [Char.utf8Size, hle])]
  rfl

/-- The last case of an escape. -/
theorem readEscape_cons (line : Nat) {c : Char} (hx : c ≠ 'x') (hz : c ≠ 'z') (hu : c ≠ 'u')
    (s : List Char) :
    readEscape line (c :: s) =
      if isBreak c then some ⟨Bytes.ofChars ['\n'], line + 1, dropBreak (c :: s)⟩
      else if c.isDigit then
        let ds := ((c :: s).take 3).takeWhile Char.isDigit
        let n := Number.natOfDigits 10 ds
        if n < 256 then some ⟨[n.toUInt8], line, (c :: s).drop ds.length⟩ else none
      else (letterEscape c).map fun e => ⟨Bytes.ofChars [e], line, s⟩ := by
  rw [readEscape]
  · rintro a b rest h -
    exact hx h
  · exact hz
  · exact hu

/-- An escape in decimal digits. -/
theorem readEscape_threeDigits (line : Nat) {n : Nat} (h : n < 128) (s : List Char) :
    readEscape line (threeDigits n ++ s) = some ⟨[n.toUInt8], line, s⟩ := by
  obtain ⟨hdigits, hvalue⟩ := threeDigits_spec h
  obtain ⟨a, b, d, habd⟩ : ∃ a b d, threeDigits n = [a, b, d] := ⟨_, _, _, rfl⟩
  rw [habd] at hdigits hvalue ⊢
  obtain ⟨ha, hb, hd⟩ : a.isDigit = true ∧ b.isDigit = true ∧ d.isDigit = true := by
    simpa using hdigits
  have hne : ∀ c : Char, c.isDigit = false → a ≠ c := by
    rintro c hc rfl
    rw [ha] at hc
    cases hc
  have hbreak : isBreak a = false := by simp [isBreak, hne '\n' rfl, hne '\r' rfl]
  have hspan : ((a :: b :: d :: s).take 3).takeWhile Char.isDigit = [a, b, d] := by
    simp [ha, hb, hd]
  show readEscape line (a :: b :: d :: s) = _
  rw [readEscape_cons line (hne 'x' rfl) (hne 'z' rfl) (hne 'u' rfl), if_neg (by simp [hbreak]),
    if_pos ha]
  simp only [hspan, hvalue]
  rw [if_pos (by omega)]
  rfl

/-- An escape by a letter or a sign. -/
theorem readEscape_letter (line : Nat) {c e : Char} (h : letterEscape c = some e)
    (s : List Char) : readEscape line (c :: s) = some ⟨Bytes.ofChars [e], line, s⟩ := by
  unfold letterEscape at h
  split at h <;> cases h <;> rfl

/-! ## Characters of a literal -/

/-- **One character of a literal** is read back. -/
theorem stringBody_quoteChar (fuel line : Nat) (c : Char) (s : List Char) :
    stringBody '"' (fuel + 1) line (quoteChar c ++ s) =
      (stringBody '"' fuel line s).map fun r =>
        { r with value := String.utf8EncodeChar c ++ r.value } := by
  have hescape : ∀ (w : List Char) (e : Reading Bytes), readEscape line w = some e →
      stringBody '"' (fuel + 1) line ('\\' :: w) =
        (stringBody '"' fuel e.line e.rest).map fun r =>
          { r with value := e.value ++ r.value } := by
    intro w e he
    rw [stringBody, if_neg (by decide), if_neg (by decide), if_pos rfl, he]
  have hletter : ∀ e, letterEscape e = some c → stringBody '"' (fuel + 1) line ('\\' :: e :: s) =
      (stringBody '"' fuel line s).map fun r =>
        { r with value := String.utf8EncodeChar c ++ r.value } := by
    intro e he
    rw [hescape _ _ (readEscape_letter line he s)]
    simp [Bytes.ofChars]
  unfold quoteChar
  split
  · rename_i hc
    exact hletter '\\' (by rw [hc]; rfl)
  split
  · rename_i hc
    exact hletter '"' (by rw [hc]; rfl)
  split
  · rename_i hc
    exact hletter 'n' (by rw [hc]; rfl)
  split
  · rename_i hc
    exact hletter 'r' (by rw [hc]; rfl)
  split
  · rename_i hc
    exact hletter 't' (by rw [hc]; rfl)
  split
  · rename_i hcontrol
    have hlt : c.toNat < 128 := by omega
    rw [List.cons_append, hescape _ _ (readEscape_threeDigits line hlt s),
      utf8EncodeChar_of_lt hlt]
  · rename_i hslash hquote hn hr _ _
    have hbreak : isBreak c = false := by simp [isBreak, hn, hr]
    rw [List.singleton_append, stringBody, if_neg hquote, if_neg (by simp [hbreak]), if_neg hslash]

/-- **The inside of a literal** is read back up to the closing quote. -/
theorem stringBody_quoted (line : Nat) (t r : List Char) {fuel : Nat} (h : t.length < fuel) :
    stringBody '"' fuel line (t.flatMap quoteChar ++ '"' :: r) =
      .ok ⟨Bytes.ofChars t, line, r⟩ := by
  induction t generalizing fuel with
  | nil =>
    obtain ⟨n, rfl⟩ : ∃ n, fuel = n + 1 := ⟨fuel - 1, by simp at h; omega⟩
    rw [List.flatMap_nil, List.nil_append, stringBody, if_pos rfl]
    rfl
  | cons c t ih =>
    obtain ⟨n, rfl⟩ : ∃ n, fuel = n + 1 := ⟨fuel - 1, by simp at h; omega⟩
    rw [List.flatMap_cons, List.append_assoc, stringBody_quoteChar, ih (by simpa using h)]
    rfl

/-! ## Literals -/

/-- No character of a literal is longer as text than it is in the literal. -/
theorem length_le_flatMap_quoteChar (t : List Char) : t.length ≤ (t.flatMap quoteChar).length := by
  induction t with
  | nil => simp
  | cons c t ih =>
    have hpos : 1 ≤ (quoteChar c).length := by
      unfold quoteChar
      grind
    rw [List.flatMap_cons, List.length_append, List.length_cons]
    omega

/-- **A literal is one token,** whatever follows it; its value is the text. -/
theorem readToken_quoteText (line : Nat) (t r : List Char) :
    readToken line (quoteText t ++ r) = .ok ⟨.string (Bytes.ofChars t), line, r⟩ := by
  have hlist : quoteText t ++ r = '"' :: (t.flatMap quoteChar ++ '"' :: r) := by
    simp [quoteText]
  have hbody : readString '"' line (t.flatMap quoteChar ++ '"' :: r) =
      .ok ⟨Bytes.ofChars t, line, r⟩ := by
    refine stringBody_quoted line t r ?_
    have hle := length_le_flatMap_quoteChar t
    rw [List.length_append]
    omega
  rw [hlist, readToken]
  show Except.map _ (readString '"' line (t.flatMap quoteChar ++ '"' :: r)) = _
  rw [hbody]
  rfl

/-- A literal in front of any text. -/
theorem readsAs_quoteText (t : List Char) :
    ReadsAs Anything (quoteText t) [.string (Bytes.ofChars t)] := by
  intro line tail _
  have hread := readToken_quoteText line t tail
  have hlist : quoteText t ++ tail = '"' :: (t.flatMap quoteChar ++ '"' :: tail) := by
    simp [quoteText]
  rw [hlist] at hread ⊢
  exact lex_of_readToken (by decide) (by decide) (by decide) hread

end Stencil.Lua
