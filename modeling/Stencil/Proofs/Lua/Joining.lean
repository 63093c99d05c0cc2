import Stencil.Proofs.Lua.Lexing
set_option autoImplicit false

/-!
# Tokens of a text in front of another

A text that is read as tokens on its own is read as the same tokens in front of a line break, and
in front of a closing parenthesis too, unless it ends inside a comment. Only the lines of the
tokens depend on where the text stands.

## Main definitions

* `Stencil.Lua.Closes` — the two characters that no token goes on with.
* `Stencil.Lua.Remains` — a reading in front of more is the reading on its own.
* `Stencil.Lua.endsInComment` — a text that ends inside a comment.
* `Stencil.Lua.kinds` — tokens without their lines.

## Main results

* `Stencil.Lua.longBody_append`, `stringBody_append`, `numeralSpan_append`, `readSymbol_append` —
  the kinds of tokens.
* `Stencil.Lua.readToken_append` — one token.
* `Stencil.Lua.kinds_lex_append` — all tokens of a text.
-/

namespace Stencil.Lua

/-! ## Characters that go on with no token -/

/-- A character that no token before it can go on with: a line feed, or a closing parenthesis. -/
def Closes (c : Char) : Prop := c = '\n' ∨ c = ')'

/-- What is taken of a text ends before a character that is not taken. -/
theorem takeWhile_append_cons {α : Type} {p : α → Bool} {c : α} (hc : p c = false)
    (s tail : List α) : (s ++ c :: tail).takeWhile p = s.takeWhile p := by
  induction s with
  | nil => simp [hc]
  | cons d s ih =>
    by_cases hd : p d = true
    · rw [List.cons_append, List.takeWhile_cons_of_pos hd, List.takeWhile_cons_of_pos hd, ih]
    · rw [List.cons_append, List.takeWhile_cons_of_neg hd, List.takeWhile_cons_of_neg hd]

/-- What is left of a text behind what is taken of it. -/
theorem drop_takeWhile_append {α : Type} (p : α → Bool) (s tail : List α) :
    (s ++ tail).drop (s.takeWhile p).length = s.drop (s.takeWhile p).length ++ tail :=
  List.drop_append_of_le_length (List.takeWhile_prefix p).length_le

/-- What is taken of the beginning of a text ends before a character that is not taken. -/
theorem takeWhile_take_append {α : Type} {p : α → Bool} {c : α} (hc : p c = false) {n : Nat}
    (s tail : List α) : ((s ++ c :: tail).take n).takeWhile p = (s.take n).takeWhile p := by
  rw [List.take_append]
  cases n - s.length with
  | zero => rw [List.take_zero, List.append_nil]
  | succ n => rw [List.take_succ_cons, takeWhile_append_cons hc]

variable {c : Char}

/-! ## Long brackets -/

/-- A closing long bracket is found inside the text. -/
theorem longClosing_append (hc : Closes c) (level : Nat) (s tail : List Char) :
    longClosing level (s ++ c :: tail) = (longClosing level s).map (· ++ c :: tail) := by
  have hsign : (c == '=') = false := by rcases hc with rfl | rfl <;> rfl
  cases s with
  | nil =>
    rcases hc with rfl | rfl <;> rfl
  | cons d t =>
    by_cases hd : d = ']'
    · subst hd
      simp only [List.cons_append, longClosing,
        takeWhile_append_cons (p := (· == '=')) hsign]
      split
      · rename_i hsigns
        have hlevel : level ≤ t.length := by
          have hle := (List.takeWhile_prefix (l := t) (· == '=')).length_le
          rwa [hsigns, List.length_replicate] at hle
        rw [List.drop_append_of_le_length hlevel]
        cases hdrop : t.drop level with
        | nil => rcases hc with rfl | rfl <;> rfl
        | cons e u =>
          by_cases he : e = ']'
          · subst he
            rfl
          · simp [he]
      · rfl
    · simp [longClosing, hd]

/-- An opening long bracket is found inside the text. -/
theorem longOpening_append (hc : Closes c) (s tail : List Char) :
    longOpening (s ++ c :: tail) = (longOpening s).map fun (level, rest) =>
      (level, rest ++ c :: tail) := by
  have hsign : (c == '=') = false := by rcases hc with rfl | rfl <;> rfl
  cases s with
  | nil => rcases hc with rfl | rfl <;> rfl
  | cons d t =>
    by_cases hd : d = '['
    · subst hd
      simp only [List.cons_append, longOpening, takeWhile_append_cons (p := (· == '=')) hsign,
        drop_takeWhile_append]
      cases hdrop : t.drop (t.takeWhile (· == '=')).length with
      | nil => rcases hc with rfl | rfl <;> rfl
      | cons e u =>
        by_cases he : e = '['
        · subst he
          rfl
        · simp [he]
    · simp [longOpening, hd]

/-- A line break of one or two characters. -/
theorem dropBreak_cons_cons (d e : Char) (s : List Char) :
    dropBreak (d :: e :: s) =
      if d = '\n' ∧ e = '\r' ∨ d = '\r' ∧ e = '\n' then s else e :: s := by
  unfold dropBreak
  split
  · simp_all
  · simp_all
  · rename_i hlf hcr heq
    cases heq
    rw [if_neg]
    rintro (⟨rfl, rfl⟩ | ⟨rfl, rfl⟩)
    · exact hlf s rfl rfl
    · exact hcr s rfl rfl
  · simp_all

/-- Nothing is behind a line break that is the whole text. -/
theorem dropBreak_singleton (d : Char) : dropBreak [d] = [] := by
  unfold dropBreak
  split <;> simp_all

/-- A line break in front of a text. -/
theorem dropBreak_append {s : List Char} (hs : s ≠ []) (d : Char) (tail : List Char) :
    dropBreak (d :: s ++ tail) = dropBreak (d :: s) ++ tail := by
  obtain ⟨e, s, rfl⟩ := List.exists_cons_of_ne_nil hs
  rw [List.cons_append, List.cons_append, dropBreak_cons_cons, dropBreak_cons_cons]
  split <;> rfl

/-- **What is read of a text stays the same** in front of other text, from whatever line on. -/
def Remains {α : Type} (x : Except Nat (Reading α)) (tail : List Char)
    (y : Except Nat (Reading α)) : Prop :=
  ∀ r, x = .ok r → ∃ line, y = .ok ⟨r.value, line, r.rest ++ tail⟩

/-- What is made of a reading stays the same. -/
theorem Remains.map {α β : Type} {x y : Except Nat (Reading α)} {tail : List Char} {f : α → β}
    (h : Remains x tail y) :
    Remains (x.map fun r => { r with value := f r.value }) tail
      (y.map fun r => { r with value := f r.value }) := by
  intro r hr
  obtain ⟨q, hq, rfl⟩ := exists_of_map_eq_ok hr
  obtain ⟨line, rfl⟩ := h q hq
  exact ⟨line, rfl⟩

/-- The inside of a long bracket. -/
theorem longBody_append (hc : Closes c) (level : Nat) {fuel fuel' : Nat} (hfuel : fuel ≤ fuel')
    (line line' : Nat) (s tail : List Char) :
    Remains (longBody level fuel line s) (c :: tail)
      (longBody level fuel' line' (s ++ c :: tail)) := by
  induction fuel generalizing fuel' line line' s with
  | zero => rintro _ ⟨⟩
  | succ fuel ih =>
    obtain ⟨fuel', rfl⟩ : ∃ n, fuel' = n + 1 := ⟨fuel' - 1, by omega⟩
    have hfuel : fuel ≤ fuel' := by omega
    cases s with
    | nil => rintro _ ⟨⟩
    | cons d s =>
      have hclosing := longClosing_append hc level (d :: s) tail
      rw [List.cons_append] at hclosing ⊢
      rw [longBody, longBody, hclosing]
      cases longClosing level (d :: s) with
      | some rest =>
        rintro _ ⟨⟩
        exact ⟨line', rfl⟩
      | none =>
        simp only [Option.map_none]
        by_cases hd : isBreak d = true
        · rw [if_pos hd, if_pos hd]
          cases s with
          | nil =>
            -- There is nothing behind the break, and so no closing bracket.
            intro r hr
            rw [dropBreak_singleton] at hr
            obtain ⟨q, hq, -⟩ := exists_of_map_eq_ok hr
            cases fuel <;> cases hq
          | cons e s =>
            rw [← List.cons_append, dropBreak_append (List.cons_ne_nil e s)]
            exact (ih hfuel (line + 1) (line' + 1) _).map
        · rw [if_neg hd, if_neg hd]
          exact (ih hfuel line line' s).map

/-- The inside of a long bracket, without a line break at its beginning. -/
theorem readLong_append (hc : Closes c) (level line line' : Nat) (s tail : List Char) :
    Remains (readLong level line s) (c :: tail) (readLong level line' (s ++ c :: tail)) := by
  cases s with
  | nil => rintro _ ⟨⟩
  | cons d s =>
    have hlength : (d :: s).length ≤ (d :: s ++ c :: tail).length := by simp
    rw [List.cons_append] at hlength ⊢
    rw [readLong, readLong]
    by_cases hd : isBreak d = true
    · rw [if_pos hd, if_pos hd]
      cases s with
      | nil =>
        rw [dropBreak_singleton]
        rintro _ ⟨⟩
      | cons e s =>
        rw [← List.cons_append, dropBreak_append (List.cons_ne_nil e s)]
        exact longBody_append hc level hlength _ _ _ _
    · rw [if_neg hd, if_neg hd, ← List.cons_append]
      exact longBody_append hc level hlength _ _ _ _

/-! ## String literals -/

/-- A code point in braces is found inside the text. -/
theorem codePoint_append (hc : Closes c) (s tail : List Char) :
    codePoint (s ++ c :: tail) = (codePoint s).map fun (n, rest) => (n, rest ++ c :: tail) := by
  have hdigit : Number.isDigitOf 16 c = false := by rcases hc with rfl | rfl <;> rfl
  cases s with
  | nil => rcases hc with rfl | rfl <;> rfl
  | cons d s =>
    by_cases hd : d = '\x7b'
    · subst hd
      simp only [List.cons_append, codePoint, takeWhile_append_cons hdigit, drop_takeWhile_append]
      cases hdrop : s.drop (s.takeWhile (Number.isDigitOf 16)).length with
      | nil => rcases hc with rfl | rfl <;> rfl
      | cons e u =>
        by_cases he : e = '\x7d'
        · subst he
          by_cases hn : (s.takeWhile (Number.isDigitOf 16)).isEmpty = true ∨
              0x80000000 ≤ Number.natOfDigits 16 (s.takeWhile (Number.isDigitOf 16))
          · simp only [if_pos hn, List.cons_append, Option.map_none]
          · simp only [if_neg hn, List.cons_append, Option.map_some]
        · simp [he]
    · simp [codePoint, hd]

/-- The escapes that are neither a byte nor a code point in base sixteen, and skip no blanks. -/
theorem readEscape_of_ne {d : Char} (hx : d ≠ 'x') (hz : d ≠ 'z') (hu : d ≠ 'u') (line : Nat)
    (s : List Char) :
    readEscape line (d :: s) =
      if isBreak d then some ⟨Bytes.ofChars ['\n'], line + 1, dropBreak (d :: s)⟩
      else if d.isDigit then
        let ds := ((d :: s).take 3).takeWhile Char.isDigit
        let n := Number.natOfDigits 10 ds
        if n < 256 then some ⟨[n.toUInt8], line, (d :: s).drop ds.length⟩ else none
      else (letterEscape d).map fun e => ⟨Bytes.ofChars [e], line, s⟩ := by
  unfold readEscape
  split <;> simp_all

/-- An escape in front of something is read in front of more. -/
theorem readEscape_append (hc : Closes c) {line : Nat} (line' : Nat) {s : List Char}
    (tail : List Char) {e : Reading Bytes} (h : readEscape line s = some e) (hrest : e.rest ≠ []) :
    ∃ l, readEscape line' (s ++ c :: tail) = some ⟨e.value, l, e.rest ++ c :: tail⟩ := by
  have hdigit : c.isDigit = false := by rcases hc with rfl | rfl <;> rfl
  cases s with
  | nil => cases h
  | cons d s =>
    by_cases hx : d = 'x'
    · subst hx
      match s with
      | [] => cases h
      | [a] => cases h
      | a :: b :: s =>
        simp only [readEscape, List.cons_append] at h ⊢
        split at h
        · cases h
          exact ⟨line', rfl⟩
        · cases h
    · by_cases hz : d = 'z'
      · subst hz
        simp only [readEscape, List.cons_append, Option.some.injEq] at h ⊢
        subst h
        have hlength : (s.takeWhile Number.isSpace).length ≠ s.length := by
          intro heq
          rw [heq, List.drop_length] at hrest
          exact hrest rfl
        have hspan : (s ++ c :: tail).takeWhile Number.isSpace = s.takeWhile Number.isSpace := by
          rw [List.takeWhile_append, if_neg hlength]
        rw [hspan, drop_takeWhile_append]
        exact ⟨_, rfl⟩
      · by_cases hu : d = 'u'
        · subst hu
          simp only [readEscape, List.cons_append, codePoint_append hc] at h ⊢
          obtain ⟨⟨n, rest⟩, hn, rfl⟩ := Option.map_eq_some_iff.mp h
          exact ⟨line', by rw [hn]; rfl⟩
        · rw [readEscape_of_ne hx hz hu] at h
          rw [List.cons_append, readEscape_of_ne hx hz hu]
          by_cases hbreak : isBreak d = true
          · rw [if_pos hbreak] at h ⊢
            cases h
            have hs : s ≠ [] := by
              rintro rfl
              exact hrest (dropBreak_singleton d)
            rw [← List.cons_append, dropBreak_append hs]
            exact ⟨_, rfl⟩
          · rw [if_neg hbreak] at h ⊢
            by_cases hd : d.isDigit = true
            · rw [if_pos hd] at h ⊢
              rw [← List.cons_append, takeWhile_take_append hdigit]
              have hlength : (((d :: s).take 3).takeWhile Char.isDigit).length ≤ (d :: s).length :=
                (List.takeWhile_prefix _).length_le.trans (List.length_take_le' _ _)
              dsimp only at h ⊢
              rw [List.drop_append_of_le_length hlength]
              split at h
              · cases h
                rename_i hn
                exact ⟨line', if_pos hn⟩
              · cases h
            · rw [if_neg hd] at h ⊢
              obtain ⟨b, hb, rfl⟩ := Option.map_eq_some_iff.mp h
              exact ⟨line', by rw [hb]; rfl⟩

/-- **The inside of a string literal.** -/
theorem stringBody_append (hc : Closes c) (quote : Char) {fuel fuel' : Nat} (hfuel : fuel ≤ fuel')
    (line line' : Nat) (s tail : List Char) :
    Remains (stringBody quote fuel line s) (c :: tail)
      (stringBody quote fuel' line' (s ++ c :: tail)) := by
  induction fuel generalizing fuel' line line' s with
  | zero => rintro _ ⟨⟩
  | succ fuel ih =>
    obtain ⟨fuel', rfl⟩ : ∃ n, fuel' = n + 1 := ⟨fuel' - 1, by omega⟩
    have hfuel : fuel ≤ fuel' := by omega
    cases s with
    | nil => rintro _ ⟨⟩
    | cons d s =>
      rw [List.cons_append, stringBody, stringBody]
      by_cases hquote : d = quote
      · rw [if_pos hquote, if_pos hquote]
        rintro _ ⟨⟩
        exact ⟨line', rfl⟩
      · rw [if_neg hquote, if_neg hquote]
        by_cases hbreak : isBreak d = true
        · rw [if_pos hbreak]
          rintro _ ⟨⟩
        · rw [if_neg hbreak, if_neg hbreak]
          by_cases hslash : d = '\\'
          · rw [if_pos hslash, if_pos hslash]
            cases hescape : readEscape line s with
            | none => rintro _ ⟨⟩
            | some e =>
              by_cases hrest : e.rest = []
              · -- The closing quote is missing.
                intro r hr
                dsimp only at hr
                rw [hrest] at hr
                obtain ⟨q, hq, -⟩ := exists_of_map_eq_ok hr
                cases fuel <;> cases hq
              · obtain ⟨l, hl⟩ := readEscape_append hc line' tail hescape hrest
                rw [hl]
                exact (ih hfuel e.line l e.rest).map
          · rw [if_neg hslash, if_neg hslash]
            exact (ih hfuel line line' s).map

/-! ## Numerals and signs -/

/-- The characters of a numeral end inside the text. -/
theorem numeralText_append (hc : Closes c) {small capital : Char} (hsmall : Closes small → False)
    (hcapital : Closes capital → False) (s tail : List Char) :
    numeralText small capital (s ++ c :: tail) = numeralText small capital s := by
  have hdigit : Number.isDigitOf 16 c = false := by rcases hc with rfl | rfl <;> rfl
  have hpoint : (c == '.') = false := by rcases hc with rfl | rfl <;> rfl
  have hplus : ¬ (c = '+' ∨ c = '-') := by rcases hc with rfl | rfl <;> decide
  have hmark : ¬ (c = small ∨ c = capital) := by
    rintro (rfl | rfl)
    · exact hsmall hc
    · exact hcapital hc
  have hend : numeralText small capital (c :: tail) = [] := by
    cases tail with
    | nil => simp_all [numeralText]
    | cons d tail => rw [numeralText, if_neg hmark, hdigit, hpoint]; rfl
  have hstep (d e : Char) (s : List Char) (h : ¬ (d = small ∨ d = capital)) :
      numeralText small capital (d :: e :: s) =
        if Number.isDigitOf 16 d || d == '.' then d :: numeralText small capital (e :: s)
        else [] := by
    rw [numeralText, if_neg h]
  fun_induction numeralText small capital s with
  | case1 => exact hend
  | case2 d hd =>
    rw [List.singleton_append, numeralText, if_neg hplus, hend]
    split
    · rfl
    · rename_i hmark
      rw [not_or] at hmark
      rw [if_pos (by simpa [hmark.1, hmark.2] using hd)]
  | case3 d hd =>
    simp only [Bool.or_eq_true, beq_iff_eq, not_or] at hd
    rw [List.singleton_append, hstep d c tail (not_or.mpr ⟨hd.1.2, hd.2⟩), if_neg (by simp [hd])]
  | case4 d e s hd he ih =>
    rw [List.cons_append, List.cons_append, numeralText, if_pos hd, if_pos he, ih]
  | case5 d e s hd he ih =>
    rw [List.cons_append, List.cons_append, numeralText, if_pos hd, if_neg he,
      ← List.cons_append, ih]
  | case6 d e s hd hdigit ih =>
    rw [List.cons_append, List.cons_append, hstep d e _ hd, if_pos hdigit, ← List.cons_append, ih]
  | case7 d e s hd hdigit =>
    rw [List.cons_append, List.cons_append, hstep d e _ hd, if_neg hdigit]

/-- The mark of base sixteen is inside the text. -/
theorem hexBody_append (hc : Closes c) (s tail : List Char) :
    Number.hexBody (s ++ c :: tail) = (Number.hexBody s).map (· ++ c :: tail) := by
  match s with
  | [] => rcases hc with rfl | rfl <;> rfl
  | [d] =>
    have hx : c ≠ 'x' ∧ c ≠ 'X' := by rcases hc with rfl | rfl <;> decide
    simp [Number.hexBody, hx]
  | d :: e :: s =>
    simp only [List.cons_append, Number.hexBody]
    split
    · rename_i heq
      cases heq
      rfl
    · rename_i heq
      cases heq
      rfl
    · rename_i h0 h1
      split
      · rename_i heq
        cases heq
        exact absurd rfl (h0 _)
      · rename_i heq
        cases heq
        exact absurd rfl (h1 _)
      · rfl

/-- The characters of a numeral are in front of the text. -/
theorem numeralText_prefix (small capital : Char) (s : List Char) :
    numeralText small capital s <+: s := by
  fun_induction numeralText small capital s with
  | case1 | case2 | case3 | case7 => simp
  | case4 d e s hd he ih =>
    obtain ⟨t, ht⟩ := ih
    exact ⟨t, by rw [List.cons_append, List.cons_append, ht]⟩
  | case5 d e s hd he ih | case6 d e s hd hdigit ih => exact List.prefix_cons_inj d |>.mpr ih

/-- The characters of a numeral in base sixteen. -/
theorem eq_take_of_hexBody {s rest : List Char} (h : Number.hexBody s = some rest) :
    s = s.take 2 ++ rest := by
  unfold Number.hexBody at h
  split at h <;> cases h <;> rfl

/-- **A numeral ends inside the text.** -/
theorem numeralSpan_append (hc : Closes c) (s tail : List Char) :
    numeralSpan (s ++ c :: tail) = numeralSpan s ∧ numeralSpan s <+: s := by
  have hstart : isNameStart c = false := by rcases hc with rfl | rfl <;> rfl
  have hmark {d : Char} (hd : isNameStart d = true) (hclose : Closes d) : False := by
    rcases hclose with rfl | rfl <;> cases hd
  obtain ⟨text, htext, hspan, hspan'⟩ : ∃ text, text <+: s ∧
      numeralSpan s = text ++ ((s.drop text.length).take 1).filter isNameStart ∧
      numeralSpan (s ++ c :: tail) =
        text ++ (((s ++ c :: tail).drop text.length).take 1).filter isNameStart := by
    unfold numeralSpan
    rw [hexBody_append hc]
    cases hhex : Number.hexBody s with
    | none =>
      refine ⟨numeralText 'e' 'E' s, numeralText_prefix _ _ _, rfl, ?_⟩
      rw [Option.map_none]
      dsimp only
      rw [numeralText_append hc (hmark rfl) (hmark rfl)]
    | some rest =>
      have hs := eq_take_of_hexBody hhex
      have hlength : 2 ≤ s.length := by
        unfold Number.hexBody at hhex
        split at hhex <;> cases hhex <;> simp
      refine ⟨s.take 2 ++ numeralText 'p' 'P' rest, ?_, rfl, ?_⟩
      · obtain ⟨t, ht⟩ := numeralText_prefix 'p' 'P' rest
        exact ⟨t, by rw [List.append_assoc, ht, ← hs]⟩
      · rw [Option.map_some]
        dsimp only
        rw [numeralText_append hc (hmark rfl) (hmark rfl), List.take_append_of_le_length hlength]
  obtain ⟨behind, hbehind⟩ := htext
  have hdrop : s.drop text.length = behind := by rw [← hbehind, List.drop_left]
  rw [hspan, hspan', List.drop_append_of_le_length (by simp [← hbehind]), hdrop]
  refine ⟨?_, ?_⟩
  · cases behind with
    | nil => simp [hstart]
    | cons d behind => rfl
  · rw [← hbehind, List.prefix_append_right_inj]
    cases behind with
    | nil => simp
    | cons d behind =>
      by_cases hd : isNameStart d = true <;> simp [hd]

/-- Whether a numeral begins a text. -/
theorem startsNumeral_append (hc : Closes c) {s : List Char} (hs : s ≠ []) (tail : List Char) :
    startsNumeral (s ++ c :: tail) = startsNumeral s := by
  have hdigit : c.isDigit = false := by rcases hc with rfl | rfl <;> rfl
  match s with
  | [d] =>
    by_cases hd : d = '.'
    · subst hd
      exact hdigit
    · simp [startsNumeral, hd]
  | d :: e :: s =>
    by_cases hd : d = '.'
    · subst hd
      rfl
    · simp [startsNumeral, hd]

/-- The sign of two characters, other than the points. -/
def pairOf? : Char → Char → Option Symbol
  | '=', '=' => some .equal
  | '~', '=' => some .notEqual
  | '<', '=' => some .lessEqual
  | '>', '=' => some .greaterEqual
  | '<', '<' => some .shiftLeft
  | '>', '>' => some .shiftRight
  | '/', '/' => some .doubleSlash
  | ':', ':' => some .doubleColon
  | _, _ => none

/-- Behind two points, a third one counts. -/
theorem readSymbol_points (s : List Char) :
    readSymbol ('.' :: '.' :: s) =
      if s.head? = some '.' then some (.ellipsis, s.tail) else some (.concat, s) := by
  cases s with
  | nil => rfl
  | cons f s =>
    by_cases hf : f = '.'
    · subst hf
      rfl
    · have hread : readSymbol ('.' :: '.' :: f :: s) = some (.concat, f :: s) :=
        readSymbol.eq_2 (f :: s) fun t heq => hf (List.cons.inj heq).1
      rw [hread, if_neg (by simpa using hf)]

/-- Other signs have one or two characters. -/
theorem readSymbol_cons_cons {d e : Char} (h : ¬ (d = '.' ∧ e = '.')) (s : List Char) :
    readSymbol (d :: e :: s) = match pairOf? d e with
      | some symbol => some (symbol, s)
      | none => (symbolOf? d).map fun symbol => (symbol, e :: s) := by
  unfold readSymbol
  split
  case h_11 =>
    rename_i heq
    cases heq
    have hpair : pairOf? d e = none := by
      unfold pairOf?
      split <;> simp_all
    rw [hpair]
  all_goals simp_all [pairOf?]

/-- **A sign ends inside the text.** -/
theorem readSymbol_append (hc : Closes c) {s : List Char} (hs : s ≠ []) (tail : List Char) :
    readSymbol (s ++ c :: tail) =
      (readSymbol s).map fun (symbol, rest) => (symbol, rest ++ c :: tail) := by
  have hpoint : c ≠ '.' := by rcases hc with rfl | rfl <;> decide
  match s with
  | [d] =>
    have hpair : pairOf? d c = none := by
      unfold pairOf?
      rcases hc with rfl | rfl <;> split <;> simp_all
    rw [List.singleton_append, readSymbol_cons_cons fun h => hpoint h.2, hpair]
    have hsingle : readSymbol [d] = (symbolOf? d).map fun symbol => (symbol, []) := by
      unfold readSymbol
      split <;> simp_all
    rw [hsingle]
    cases symbolOf? d <;> rfl
  | d :: e :: s =>
    rw [List.cons_append, List.cons_append]
    by_cases h : d = '.' ∧ e = '.'
    · obtain ⟨rfl, rfl⟩ := h
      rw [readSymbol_points, readSymbol_points]
      cases s with
      | nil => simp [hpoint]
      | cons f s =>
        rw [List.cons_append, List.head?_cons, List.head?_cons, List.tail_cons, List.tail_cons]
        split <;> rfl
    · rw [readSymbol_cons_cons h, readSymbol_cons_cons h]
      cases pairOf? d e with
      | some symbol => rfl
      | none => cases symbolOf? d <;> rfl

/-! ## Tokens -/

/-- **A token ends inside the text.** -/
theorem readToken_append (hc : Closes c) (line line' : Nat) {s : List Char} (hs : s ≠ [])
    (tail : List Char) :
    Remains (readToken line s) (c :: tail) (readToken line' (s ++ c :: tail)) := by
  obtain ⟨d, s, rfl⟩ := List.exists_cons_of_ne_nil hs
  have hname : isNameChar c = false := by rcases hc with rfl | rfl <;> rfl
  have hshort : "[=".toList.isPrefixOf (d :: (s ++ c :: tail)) =
      "[=".toList.isPrefixOf (d :: s) := by
    cases s with
    | nil => rcases hc with rfl | rfl <;> rfl
    | cons e s => rfl
  have hnumeral := startsNumeral_append hc hs tail
  have hspan := numeralSpan_append hc (d :: s) tail
  have hopen := longOpening_append hc (d :: s) tail
  have hsymbol := readSymbol_append hc hs tail
  have hchars := takeWhile_append_cons hname (d :: s) tail
  have hdrop := drop_takeWhile_append isNameChar (d :: s) (c :: tail)
  rw [List.cons_append] at hnumeral hspan hopen hsymbol hchars hdrop ⊢
  rw [readToken, readToken, hchars, hnumeral, hspan.1, hopen, hshort, hsymbol]
  by_cases hstart : isNameStart d = true
  · rw [if_pos hstart, if_pos hstart]
    rintro _ ⟨⟩
    refine ⟨line', ?_⟩
    dsimp only
    rw [hdrop]
  · rw [if_neg hstart, if_neg hstart]
    by_cases hdigit : startsNumeral (d :: s) = true
    · rw [if_pos hdigit, if_pos hdigit]
      dsimp only
      cases Number.ofNumeral? (numeralSpan (d :: s)) with
      | none => rintro _ ⟨⟩
      | some n =>
        rintro _ ⟨⟩
        refine ⟨line', ?_⟩
        rw [← List.cons_append, List.drop_append_of_le_length hspan.2.length_le]
    · rw [if_neg hdigit, if_neg hdigit]
      by_cases hquote : d = '"' ∨ d = '\''
      · rw [if_pos hquote, if_pos hquote]
        have hlength : s.length + 1 ≤ (s ++ c :: tail).length + 1 := by simp
        exact (stringBody_append hc d hlength line line' s tail).map
      · rw [if_neg hquote, if_neg hquote]
        cases longOpening (d :: s) with
        | some opening =>
          obtain ⟨level, rest⟩ := opening
          exact (readLong_append hc level line line' rest tail).map
            (f := fun text => Token.string (Bytes.ofChars text))
        | none =>
          dsimp only [Option.map_none]
          split
          · rintro _ ⟨⟩
          · cases readSymbol (d :: s) with
            | some symbol =>
              rintro _ ⟨⟩
              exact ⟨line', rfl⟩
            | none =>
              rintro _ ⟨⟩
              exact ⟨line', rfl⟩

/-! ## Comments -/

/-- Whether a text that is read from a line on ends inside a comment that goes on to the end of
its line; at most `fuel` steps of it are looked at. -/
def openFrom : Nat → Nat → List Char → Bool
  | 0, _, _ => false
  | fuel + 1, line, s =>
    match s with
    | [] => false
    | '-' :: '-' :: rest => match skipComment line rest with
      | .error _ => false
      | .ok r => ((longOpening rest).isNone && r.rest.isEmpty) || openFrom fuel r.line r.rest
    | c :: rest =>
      if isBreak c then openFrom fuel (line + 1) (dropBreak s)
      else if Number.isSpace c then openFrom fuel line rest
      else match readToken line s with
        | .error _ => false
        | .ok r => openFrom fuel r.line r.rest

/-- **Whether a text ends inside a comment** that goes on to the end of its line. -/
def endsInComment (s : List Char) : Bool := openFrom (s.length + 1) 1 s

/-- A text that begins with no comment. -/
theorem openFrom_cons (fuel line : Nat) {d : Char} {s : List Char}
    (h : ¬ (d = '-' ∧ ∃ r, s = '-' :: r)) :
    openFrom (fuel + 1) line (d :: s) =
      if isBreak d then openFrom fuel (line + 1) (dropBreak (d :: s))
      else if Number.isSpace d then openFrom fuel line s
      else match readToken line (d :: s) with
        | .error _ => false
        | .ok r => openFrom fuel r.line r.rest := by
  rw [openFrom]
  all_goals first
    | rfl
    | exact fun r hc hs => h ⟨hc, r, hs⟩

/-- **A comment ends inside the text,** or with its line. -/
theorem skipComment_append (hc : Closes c) (line line' : Nat) (s tail : List Char)
    {r : Reading Unit} (hr : skipComment line s = .ok r)
    (hopen : c = ')' → ((longOpening s).isNone && r.rest.isEmpty) = false) :
    ∃ l, skipComment line' (s ++ c :: tail) = .ok ⟨(), l, r.rest ++ c :: tail⟩ := by
  unfold skipComment at hr ⊢
  rw [longOpening_append hc]
  cases hlong : longOpening s with
  | some opening =>
    obtain ⟨level, rest⟩ := opening
    rw [hlong] at hr
    exact (readLong_append hc level line line' rest tail).map (f := fun _ => ()) r hr
  | none =>
    rw [hlong] at hr hopen
    cases hr
    refine ⟨line', ?_⟩
    dsimp only [Option.map_none]
    rw [List.dropWhile_append]
    split
    · rename_i hempty
      rw [List.isEmpty_iff] at hempty
      rcases hc with rfl | rfl
      · rw [hempty]
        rfl
      · simp [hempty] at hopen
    · rfl

/-! ## Texts -/

/-- The tokens of a text without their lines. -/
def kinds (tokens : List Located) : List Token := tokens.map Located.token

/-- The tokens of two lists. -/
theorem kinds_append (ts us : List Located) : kinds (ts ++ us) = kinds ts ++ kinds us :=
  List.map_append

/-- A text that begins with no comment begins with none in front of another text either. -/
theorem not_comment_append (hc : Closes c) {d : Char} {u : List Char}
    (h : ¬ (d = '-' ∧ ∃ r, u = '-' :: r)) (tail : List Char) :
    ¬ (d = '-' ∧ ∃ r, u ++ c :: tail = '-' :: r) := by
  rintro ⟨rfl, r, hr⟩
  cases u with
  | nil =>
    cases hr
    rcases hc with h | h <;> cases h
  | cons e u =>
    cases hr
    exact h ⟨rfl, u, rfl⟩

/-- A line break in front of a character that closes. -/
theorem exists_lex_break_closes (hc : Closes c) {d : Char} (hd : isBreak d = true) (line : Nat)
    {tail : List Char} (htail : c = '\n' → tail.head? ≠ some '\r') :
    ∃ l, lex line (d :: c :: tail) = lex l (c :: tail) := by
  rw [lex_break hd, dropBreak_cons_cons]
  split
  · rename_i h
    rcases h with ⟨-, rfl⟩ | ⟨-, rfl⟩
    · rcases hc with h | h <;> cases h
    · -- The two characters are one line break, and so is the second of them alone.
      exact ⟨line, (lex_lf line (htail rfl)).symm⟩
  · exact ⟨line + 1, rfl⟩

/-- There is always a last token. -/
theorem kinds_tokensFrom_ne_nil (fuel line : Nat) (s : List Char) :
    kinds (tokensFrom fuel line s) ≠ [] := by
  induction fuel generalizing line s with
  | zero => simp [tokensFrom, kinds]
  | succ fuel ih =>
    unfold tokensFrom
    split
    · simp [kinds]
    · split
      · simp [kinds]
      · exact ih _ _
    · split
      · exact ih _ _
      · split
        · exact ih _ _
        · split <;> simp [kinds]

/-- No tokens are in front of the end of an empty text. -/
theorem eq_nil_of_tokensFrom_nil {fuel line : Nat} {ts : List Token}
    (h : kinds (tokensFrom fuel line []) = ts ++ [.finish]) : ts = [] := by
  have hlength := congrArg List.length h
  cases fuel <;> simpa [kinds, tokensFrom] using hlength

/-- A fault is not the end of a text. -/
theorem not_fault_eq {ts : List Token} (h : [Token.fault] = ts ++ [.finish]) : False := by
  cases ts <;> simp_all

/-- The tokens of a text in front of another, step by step. -/
theorem tokensFrom_append (hc : Closes c) {fuel fuel' line line' : Nat} {u tail : List Char}
    {ts : List Token} (hfuel : u.length < fuel) (hfuel' : (u ++ c :: tail).length < fuel')
    (htokens : kinds (tokensFrom fuel line u) = ts ++ [.finish])
    (hopen : c = ')' → openFrom fuel line u = false)
    (htail : c = '\n' → tail.head? ≠ some '\r') :
    ∃ l, kinds (tokensFrom fuel' line' (u ++ c :: tail)) = ts ++ kinds (lex l (c :: tail)) := by
  induction fuel generalizing fuel' line line' u ts with
  | zero => omega
  | succ fuel ih =>
    obtain ⟨fuel', rfl⟩ : ∃ n, fuel' = n + 1 := ⟨fuel' - 1, by omega⟩
    cases u with
    | nil =>
      obtain rfl : ts = [] := eq_nil_of_tokensFrom_nil htokens
      rw [List.nil_append] at hfuel' ⊢
      exact ⟨line', by rw [tokensFrom_eq_lex line' hfuel']; rfl⟩
    | cons d u =>
      simp only [List.length_cons, List.cons_append] at hfuel hfuel' ⊢
      by_cases hcomment : d = '-' ∧ ∃ r, u = '-' :: r
      · obtain ⟨rfl, u, rfl⟩ := hcomment
        simp only [List.length_cons, List.cons_append] at hfuel hfuel' ⊢
        rw [tokensFrom] at htokens ⊢
        rw [openFrom] at hopen
        cases hskip : skipComment line u with
        | error e =>
          rw [hskip] at htokens
          exact (not_fault_eq htokens).elim
        | ok r =>
          rw [hskip] at htokens hopen
          have hshort := length_skipComment_le hskip
          obtain ⟨l, hl⟩ := skipComment_append hc line line' u tail hskip fun heq =>
            (Bool.or_eq_false_iff.mp (hopen heq)).1
          have hlength : (r.rest ++ c :: tail).length ≤ _ := length_skipComment_le hl
          rw [hl]
          exact ih (by omega) (by omega) htokens fun heq =>
            (Bool.or_eq_false_iff.mp (hopen heq)).2
      · rw [tokensFrom_cons _ _ hcomment] at htokens
        rw [openFrom_cons _ _ hcomment] at hopen
        rw [tokensFrom_cons _ _ (not_comment_append hc hcomment tail)]
        by_cases hbreak : isBreak d = true
        · rw [if_pos hbreak] at htokens hopen ⊢
          cases u with
          | nil =>
            rw [dropBreak_singleton] at htokens
            obtain rfl : ts = [] := eq_nil_of_tokensFrom_nil htokens
            simp only [List.nil_append, List.length_cons] at hfuel' ⊢
            have hshort := length_dropBreak_le d (c :: tail)
            rw [List.length_cons] at hshort
            obtain ⟨l, hl⟩ := exists_lex_break_closes hc hbreak line' htail
            exact ⟨l, by rw [← hl, lex_break hbreak, tokensFrom_eq_lex _ (by omega)]⟩
          | cons e u =>
            have hshort := length_dropBreak_le d (e :: u)
            have hlength := length_dropBreak_le d (e :: u ++ c :: tail)
            have hdrop := dropBreak_append (List.cons_ne_nil e u) d (c :: tail)
            rw [List.cons_append] at hdrop
            rw [hdrop] at hlength ⊢
            exact ih (by omega) (by omega) htokens hopen
        · rw [if_neg hbreak] at htokens hopen ⊢
          by_cases hspace : Number.isSpace d = true
          · rw [if_pos hspace] at htokens hopen ⊢
            exact ih (by omega) (by omega) htokens hopen
          · rw [if_neg hspace] at htokens hopen ⊢
            cases hread : readToken line (d :: u) with
            | error e =>
              rw [hread] at htokens
              exact (not_fault_eq htokens).elim
            | ok r =>
              obtain ⟨l, hl⟩ := readToken_append hc line line' (List.cons_ne_nil d u) tail r hread
              rw [hread] at htokens hopen
              rw [List.cons_append] at hl
              rw [hl]
              have hshort := length_readToken_lt hread
              have hlength := length_readToken_lt hl
              simp only [List.length_cons] at hshort hlength
              cases ts with
              | nil => exact absurd (List.cons.inj htokens).2 (kinds_tokensFrom_ne_nil _ _ _)
              | cons t ts =>
                obtain ⟨rfl, hbehind⟩ := List.cons.inj htokens
                obtain ⟨l', hl'⟩ := @ih fuel' r.line l r.rest ts (by omega) (by omega) hbehind
                  hopen
                exact ⟨l', congrArg (_ :: ·) hl'⟩

/-- **The tokens of a text in front of another** are those that it has on its own, if what follows
begins with a line break, or with a closing parenthesis that no comment of the text takes in.

**Proof sketch.** Each token, comment and blank of the text ends inside it, since what follows goes
on with none of them; only a comment that is still open goes on, up to the end of its line. -/
theorem kinds_lex_append (hc : Closes c) {u tail : List Char} {ts : List Token}
    (htokens : kinds (tokenize u) = ts ++ [.finish])
    (hopen : c = ')' → endsInComment u = false)
    (htail : c = '\n' → tail.head? ≠ some '\r') (line : Nat) :
    ∃ l, kinds (lex line (u ++ c :: tail)) = ts ++ kinds (lex l (c :: tail)) :=
  tokensFrom_append hc (Nat.lt_succ_self _) (Nat.lt_succ_self _) htokens hopen htail

/-- A text that begins with something is not read as an end or a fault. -/
theorem value_readToken {line : Nat} {d : Char} {s : List Char} {r : Reading Token}
    (h : readToken line (d :: s) = .ok r) : r.value ≠ .finish ∧ r.value ≠ .fault := by
  unfold readToken at h
  dsimp only at h
  split at h
  · cases h
    dsimp only
    split <;> simp
  · split at h
    · split at h
      · cases h
        simp
      · cases h
    · split at h
      · obtain ⟨q, -, rfl⟩ := exists_of_map_eq_ok h
        simp
      · split at h
        · obtain ⟨q, -, rfl⟩ := exists_of_map_eq_ok h
          simp
        · split at h
          · cases h
          · split at h <;> cases h <;> simp

/-- **The last token** is the end or a fault, and no other is. -/
theorem exists_kinds_tokensFrom (fuel line : Nat) (s : List Char) :
    ∃ ts last, kinds (tokensFrom fuel line s) = ts ++ [last] ∧ (last = .finish ∨ last = .fault) ∧
      .finish ∉ ts := by
  induction fuel generalizing line s with
  | zero => exact ⟨[], .fault, rfl, .inr rfl, by simp⟩
  | succ fuel ih =>
    unfold tokensFrom
    split
    · exact ⟨[], .finish, rfl, .inl rfl, by simp⟩
    · split
      · exact ⟨[], .fault, rfl, .inr rfl, by simp⟩
      · exact ih _ _
    · split
      · exact ih _ _
      · split
        · exact ih _ _
        · split
          · exact ⟨[], .fault, rfl, .inr rfl, by simp⟩
          · rename_i r hread
            obtain ⟨ts, last, hts, hlast, hfinish⟩ := ih r.line r.rest
            refine ⟨r.value :: ts, last, congrArg (_ :: ·) hts, hlast, ?_⟩
            rw [List.mem_cons, not_or]
            exact ⟨(value_readToken hread).1.symm, hfinish⟩

end Stencil.Lua
