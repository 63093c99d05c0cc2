import Stencil.Mock
set_option autoImplicit false

/-!
# Lists of strings as text

A list of strings comes back from its text: each string from its quoted form, and the list from
its lines.

## Main results

* `Stencil.Json.readString_escape` — a string is read back from its escaped characters.
* `Stencil.Json.parse_strings` — a list of strings is read back from its text.
* `Stencil.Echo.ofProgram_strings` — so an echo has the parts that its program lists.
-/

namespace Stencil.Json

/-! ## Strings -/

/-- The characters with a two-character form are read back. -/
theorem unescape_of_shortEscape {c e : Char} (h : shortEscape c = some e) :
    unescape e = some c ∧ e ≠ 'u' := by
  unfold shortEscape at h
  split at h <;> cases h <;> exact ⟨rfl, by decide⟩

/-- A control character below the space is the number that its two digits spell. -/
theorem hexQuad_hexByte {n : Nat} (h : n < 0x20) :
    ∃ a b, hexByte n = [a, b] ∧ hexQuad '0' '0' a b = some n := by
  have hall : ∀ m < 0x20, hexQuad '0' '0' (Nat.digitChar (m / 16 % 16)) (Nat.digitChar (m % 16)) =
      some m := by
    decide
  exact ⟨_, _, rfl, hall n h⟩

/-- **One escaped character** is read back. -/
theorem readString_escapeChar (c : Char) (s : List Char) :
    readString (escapeChar c ++ s) = (readString s).map fun (t, rest) => (c :: t, rest) := by
  unfold escapeChar
  split
  · rename_i e he
    obtain ⟨hback, hu⟩ := unescape_of_shortEscape he
    have hread : readString ('\\' :: e :: s) = (unescape e).bind fun ch =>
        (readString s).bind fun (t, rest) => some (ch :: t, rest) := by
      rw [readString]
      · rfl
      · rintro _ _ _ _ _ rfl
        exact absurd rfl hu
    rw [List.cons_append, List.singleton_append, hread, hback]
    cases readString s <;> rfl
  · rename_i hshort
    split
    · rename_i hlow
      obtain ⟨a, b, hbyte, hquad⟩ := hexQuad_hexByte hlow
      have hunit : loneUnit c.toNat = some c := by
        have hno : ¬ (0xD800 ≤ c.toNat ∧ c.toNat < 0xE000) := by omega
        rw [loneUnit, if_neg hno, Char.ofNat_toNat]
      rw [hbyte]
      show readString ('\\' :: 'u' :: '0' :: '0' :: a :: b :: s) = _
      rw [readString, hquad]
      simp only [Option.bind_eq_bind, Option.bind_some, hunit]
      cases readString s <;> rfl
    · rename_i hlow
      have hquote : c ≠ '"' := by
        rintro rfl
        cases hshort
      have hslash : c ≠ '\\' := by
        rintro rfl
        cases hshort
      exact readString_plain hquote hslash (Nat.le_of_not_lt hlow) s

/-- **A string is read back** from its escaped characters. -/
theorem readString_escape (s rest : List Char) :
    readString (s.flatMap escapeChar ++ '"' :: rest) = some (s, rest) := by
  induction s with
  | nil => simp [readString]
  | cons c s ih =>
    rw [List.flatMap_cons, List.append_assoc, readString_escapeChar, ih]
    rfl

/-! ## Lists -/

/-- The characters of a string in quotes. -/
theorem toList_quote (s : String) :
    (quote s).toList = '"' :: (s.toList.flatMap escapeChar ++ ['"']) := by
  simp [quote]

/-- A line break with its indentation is blank. -/
theorem skipBlanks_break (layout : Layout) {s : List Char}
    (hs : ∀ c ∈ s.head?, c ≠ ' ' ∧ c ≠ '\n' ∧ c ≠ '\t' ∧ c ≠ '\r') :
    skipBlanks (layout.break.toList ++ s) = s := by
  have hnone : skipBlanks s = s := by
    cases s with
    | nil => rfl
    | cons c s =>
      have hc := hs c rfl
      simp [skipBlanks, hc]
  cases layout with
  | compact => simpa [Layout.break] using hnone
  | lines n =>
    have hblank : ∀ c ∈ List.replicate (2 * n) ' ',
        decide (c = ' ' ∨ c = '\n' ∨ c = '\t' ∨ c = '\r') = true := by
      intro c hc
      rw [List.eq_of_mem_replicate hc]
      rfl
    unfold skipBlanks at hnone ⊢
    have hlist : (Layout.lines n).break.toList = '\n' :: List.replicate (2 * n) ' ' := by
      simp [Layout.break]
    rw [hlist, List.cons_append, List.dropWhile_cons_of_pos (by decide),
      List.dropWhile_append_of_pos hblank, hnone]

/-- A string in quotes is read back as a tree. -/
theorem readValue_quote (layout : Layout) (fuel depth : Nat) (s : String) (rest : List Char) :
    readValue (fuel + 1) depth (layout.break.toList ++ (quote s).toList ++ rest) =
      some (string s, rest) := by
  have hskip : skipBlanks (layout.break.toList ++ (quote s).toList ++ rest) =
      '"' :: (s.toList.flatMap escapeChar ++ '"' :: rest) := by
    rw [toList_quote, List.append_assoc, skipBlanks_break]
    · simp
    · simp
  rw [readValue, hskip]
  simp [readString_escape]

/-- **The items of a list of strings** are read back.

**Proof sketch.** Induction on the strings; behind each of them stands a comma or the end of the
list. -/
theorem readItems_strings (layout outer : Layout) (depth : Nat) (rest : List Char) (s : String)
    (ss : List String) {fuel : Nat} (hfuel : ss.length + 2 ≤ fuel) :
    readItems fuel depth ((renderItems layout ((s :: ss).map string)).toList ++
        (outer.break.toList ++ ']' :: rest)) = some ((s :: ss).map string, rest) := by
  induction ss generalizing s fuel with
  | nil =>
    obtain ⟨n, rfl⟩ : ∃ n, fuel = n + 2 := ⟨fuel - 2, by simp at hfuel; omega⟩
    have hitems : (renderItems layout [string s]).toList =
        layout.break.toList ++ (quote s).toList := by
      simp
    have hend : skipBlanks (outer.break.toList ++ ']' :: rest) = ']' :: rest :=
      skipBlanks_break outer (by simp)
    rw [List.map_singleton, hitems, readItems, readValue_quote]
    simp [hend]
  | cons t ss ih =>
    obtain ⟨n, rfl⟩ : ∃ n, fuel = n + 2 := ⟨fuel - 2, by simp at hfuel; omega⟩
    have hlen : ss.length + 2 ≤ n + 1 := by simp at hfuel; omega
    have hitems : (renderItems layout ((s :: t :: ss).map string)).toList =
        layout.break.toList ++ (quote s).toList ++
          ',' :: (renderItems layout ((t :: ss).map string)).toList := by
      simp
    have hcomma : ∀ u : List Char, skipBlanks (',' :: u) = ',' :: u := by
      intro u
      simp [skipBlanks]
    rw [hitems, List.append_assoc, readItems, readValue_quote, List.cons_append]
    simp only [hcomma, ih t hlen]
    rfl

/-- Behind its blanks the text of the items begins with a quote. -/
theorem skipBlanks_renderItems (layout : Layout) (s : String) (ss : List String)
    (rest : List Char) :
    ∃ u, skipBlanks ((renderItems layout ((s :: ss).map string)).toList ++ rest) = '"' :: u := by
  have hfront : ∃ r, (renderItems layout ((s :: ss).map string)).toList ++ rest =
      layout.break.toList ++ '"' :: r := by
    cases ss with
    | nil => exact ⟨_, by simp [toList_quote]; rfl⟩
    | cons t ss => exact ⟨_, by simp [toList_quote]; rfl⟩
  obtain ⟨r, hr⟩ := hfront
  rw [hr, skipBlanks_break layout (by simp)]
  exact ⟨r, rfl⟩

/-- The text of the items is as long as there are items. -/
theorem length_le_renderItems (layout : Layout) (ss : List String) :
    ss.length ≤ (renderItems layout (ss.map string)).toList.length := by
  induction ss with
  | nil => simp
  | cons s ss ih =>
    cases ss with
    | nil =>
      simp [toList_quote]
      omega
    | cons t ss =>
      have hcomma : ",".toList.length = 1 := rfl
      simp only [List.map_cons, renderItems_cons_cons, render_string, String.toList_append, List.length_append,
        List.length_cons] at ih ⊢
      omega

/-- A list is read from behind its opening bracket. -/
theorem readValue_array {fuel depth : Nat} {s u rest : List Char} {items : List Json}
    (hskip : skipBlanks s = '"' :: u)
    (hitems : readItems fuel depth s = some (items, rest)) :
    readValue (fuel + 1) (depth + 1) ('[' :: s) = some (array items, rest) := by
  have hopen : skipBlanks ('[' :: s) = '[' :: s := by simp [skipBlanks]
  rw [← readItems_skipBlanks, hskip] at hitems
  rw [readValue, hopen]
  simp [hskip, hitems]

/-- **A list of strings is read back** from its text. -/
theorem parse_strings (ss : List String) : parse (strings ss).pretty = some (strings ss) := by
  cases ss with
  | nil => rfl
  | cons s ss =>
    have htext : (strings (s :: ss)).pretty.toList =
        '[' :: ((renderItems (.lines 1) ((s :: ss).map string)).toList ++
          ((Layout.lines 0).break.toList ++ [']'])) := by
      simp [strings, pretty, Layout.deeper]
    have hlen := length_le_renderItems (.lines 1) (s :: ss)
    have hfuel : ss.length + 2 ≤ 2 * (strings (s :: ss)).pretty.length + 1 := by
      rw [← String.length_toList, htext]
      simp only [List.length_cons, List.length_append] at hlen ⊢
      omega
    obtain ⟨u, hu⟩ := skipBlanks_renderItems (.lines 1) s ss
      ((Layout.lines 0).break.toList ++ [']'])
    have hvalue := readValue_array hu (readItems_strings (.lines 1) (.lines 0) 126 [] s ss hfuel)
    rw [← htext] at hvalue
    unfold parse
    rw [depthLimit, hvalue]
    rfl

end Stencil.Json

namespace Stencil.Echo

/-- **An echo has the parts that its program lists.** -/
theorem ofProgram_strings (parts : List String) :
    ofProgram (Json.strings parts).pretty = some ⟨parts⟩ := by
  have hback : (parts.map Json.string).mapM Json.string? = some parts := by
    induction parts with
    | nil => rfl
    | cons p parts ih => simp [ih, Json.string?]
  unfold ofProgram
  rw [Json.parse_strings]
  simp only [Json.strings, hback]
  rfl

end Stencil.Echo
