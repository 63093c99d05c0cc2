import Stencil.Proofs.Template.LineBreak
import Stencil.Template.Part
set_option autoImplicit false

/-!
# Runs of plain tokens

What the scanner makes of a text in which no marker begins: plain tokens that spell the text, and
then the tokens of what follows. From this, what becomes of a literal and of a block.

## Main definitions

* `Stencil.Template.Mode.marker` — the marker that counts in a mode.
* `Stencil.Template.Clear` — no marker begins inside a text.

## Main results

* `Stencil.Template.tokensFrom_plain` — the tokens of a text without markers.
* `Stencil.Template.Part.ofTokens_literal`, `ofTokens_block`, `ofTokens_open` — the parts of a
  token sequence by its first part.
-/

namespace Stencil.Template

open Stencil.Text

/-! ## One token -/

/-- **The marker that counts in a mode.** -/
def Mode.marker : Mode → List Char
  | outside => ['<', '%']
  | inside => ['%', '>']

/-- The piece that the marker of a mode is. -/
def Mode.switch : Mode → Lexeme
  | outside => .blockStart
  | inside => .blockEnd

/-- A marker that counts is the first piece. -/
theorem nextLexeme_marker (m : Mode) (s : List Char) :
    nextLexeme m (m.marker ++ s) = (m.switch, s) := by
  cases m <;> rfl

/-- A line break at the front is the first piece. -/
theorem nextLexeme_break (m : Mode) {s : List Char} {b : LineBreak}
    (h : breakAt (b.text ++ s) = some b) : nextLexeme m (b.text ++ s) = (.lineBreak b, s) := by
  cases s with
  | nil => cases b <;> cases m <;> rfl
  | cons d s =>
    cases b <;> cases m <;>
      simp_all [LineBreak.text, breakAt_lf, breakAt_cr, nextLexeme]

/-- Where neither a marker nor a line break is at the front, the first piece is a character. -/
theorem nextLexeme_character {m : Mode} {c : Char} {s : List Char} (hc : isBreakChar c = false)
    (hm : ¬ m.marker <+: c :: s) : nextLexeme m (c :: s) = (.character c, s) := by
  have hr : c ≠ '\r' := by rintro rfl; simp [isBreakChar] at hc
  have hn : c ≠ '\n' := by rintro rfl; simp [isBreakChar] at hc
  cases s with
  | nil => simp [nextLexeme, hr, hn]
  | cons d s =>
    cases m <;> grind [nextLexeme, Mode.marker]

/-- The tokens from a place that is not the end are that place's token and those behind it. -/
theorem tokensFrom_of_nextLexeme {s : Scan} {l : Lexeme} {rest : List Char}
    (h : nextLexeme s.mode s.rest = (l, rest)) (hl : l ≠ .finish) :
    tokensFrom s = ⟨l, s.position, s.line⟩ ::
      tokensFrom ⟨s.mode.after l, s.position + utf8Length l.text, s.line + l.lines, rest⟩ := by
  have ht : s.token = ⟨l, s.position, s.line⟩ := by simp [Scan.token, h]
  rw [tokensFrom, dif_neg (by simpa [ht] using hl), ht]
  simp [Scan.advance, ht, h, Token.text]

/-- At the end there is the end token only. -/
theorem tokensFrom_nil (m : Mode) (position line : Nat) :
    tokensFrom ⟨m, position, line, []⟩ = [⟨.finish, position, line⟩] := by
  have h : (Scan.mk m position line []).token.lexeme = .finish := rfl
  rw [tokensFrom, dif_pos h]
  rfl

/-- The tokens from a line break on. -/
theorem tokensFrom_break (m : Mode) (position line : Nat) {s : List Char} {b : LineBreak}
    (h : breakAt (b.text ++ s) = some b) :
    tokensFrom ⟨m, position, line, b.text ++ s⟩ = ⟨.lineBreak b, position, line⟩ ::
      tokensFrom ⟨m, position + utf8Length b.text, line + 1, s⟩ :=
  tokensFrom_of_nextLexeme (s := ⟨m, position, line, b.text ++ s⟩) (nextLexeme_break m h) (by simp)

/-- Where no line break is at the front, the first token is none. -/
theorem tokensFrom_of_breakAt_eq_none (m : Mode) (position line : Nat) {s : List Char}
    (h : breakAt s = none) :
    ∃ t ts, tokensFrom ⟨m, position, line, s⟩ = t :: ts ∧ ∀ b, t.lexeme ≠ .lineBreak b := by
  cases s with
  | nil => exact ⟨_, _, tokensFrom_nil m position line, by simp⟩
  | cons c s =>
    have hc : isBreakChar c = false :=
      Bool.eq_false_iff.mpr fun hc => breakAt_cons_ne_none hc h
    by_cases hm : m.marker <+: c :: s
    · obtain ⟨r, hr⟩ := hm
      have hs : m.switch ≠ .finish := by cases m <;> simp [Mode.switch]
      rw [← hr]
      refine ⟨_, _, tokensFrom_of_nextLexeme (nextLexeme_marker m r) hs, ?_⟩
      cases m <;> simp [Mode.switch]
    · exact ⟨_, _, tokensFrom_of_nextLexeme (nextLexeme_character hc hm) (by simp), by simp⟩

/-! ## Plain texts -/

/-- **No marker of a mode begins inside `u`,** when `tail` follows it. -/
def Clear (m : Mode) (u tail : List Char) : Prop :=
  ∀ v w, u = v ++ w → w ≠ [] → ¬ m.marker <+: w ++ tail

/-- What is clear stays so without its beginning. -/
theorem Clear.of_append {m : Mode} {u v tail : List Char} (h : Clear m (u ++ v) tail) :
    Clear m v tail :=
  fun v' w hv hw => h (u ++ v') w (by rw [hv, List.append_assoc]) hw

/-- The break at the front of a text does not reach into what follows, if that begins with no
break character. -/
theorem prefix_of_breakAt_append {u tail : List Char} {b : LineBreak} (hu : u ≠ [])
    (htail : ∀ c ∈ tail.head?, isBreakChar c = false) (h : breakAt (u ++ tail) = some b) :
    b.text <+: u := by
  have hp := text_prefix_of_breakAt h
  match u with
  | [] => exact absurd rfl hu
  | [c] =>
    cases tail with
    | nil => simpa using hp
    | cons d tail =>
      have hd : isBreakChar d = false := htail d rfl
      cases b <;> grind [LineBreak.text, isBreakChar]
  | c :: d :: u =>
    cases b <;> grind [LineBreak.text]

/-- **The tokens of a text without markers** are plain, spell the text, and begin where it does;
behind them come the tokens of what follows.

**Proof sketch.** Induction on the length of the text. Its first piece is a line break that ends
inside the text, or a character; the rest of the text is shorter and clear again. -/
theorem tokensFrom_plain {m : Mode} {tail : List Char}
    (htail : ∀ c ∈ tail.head?, isBreakChar c = false) :
    ∀ (n : Nat) (u : List Char) (position line : Nat), u.length = n → Clear m u tail →
      ∃ ts, tokensFrom ⟨m, position, line, u ++ tail⟩ =
          ts ++ tokensFrom ⟨m, position + utf8Length u, line + lineBreaks u, tail⟩ ∧
        (∀ t ∈ ts, t.isPlain = true) ∧ spell ts = u ∧
        ∀ c ∈ u.head?, ∃ l, ts.head? = some ⟨l, position, line⟩ ∧
          (l = .character '=' ↔ c = '=') := by
  intro n
  induction n using Nat.strongRecOn with
  | ind n ih =>
    intro u position line hlen hclear
    cases u with
    | nil => exact ⟨[], by simp, by simp, rfl, by simp⟩
    | cons c u =>
      cases hc : isBreakChar c with
      | true =>
        obtain ⟨b, hb⟩ := Option.ne_none_iff_exists'.mp
          (breakAt_cons_ne_none (s := u ++ tail) hc)
        obtain ⟨v, hv⟩ := prefix_of_breakAt_append (List.cons_ne_nil c u) htail hb
        have hb' : breakAt (b.text ++ (v ++ tail)) = some b := by
          rw [← List.append_assoc, hv]
          exact hb
        have hpos : 0 < b.text.length := by cases b <;> simp [LineBreak.text]
        have hshort : v.length < n := by
          rw [← hlen, ← hv, List.length_append]
          omega
        obtain ⟨ts, hts, hplain, hspell, -⟩ := ih v.length hshort v
          (position + utf8Length b.text) (line + 1) rfl
          (by rw [← hv] at hclear; exact hclear.of_append)
        refine ⟨⟨.lineBreak b, position, line⟩ :: ts, ?_, ?_, ?_, ?_⟩
        · rw [← hv, List.append_assoc, tokensFrom_break m position line hb',
            lineBreaks_of_breakAt (breakAt_shorten hb' (List.prefix_append v tail))]
          simpa [Nat.add_assoc] using hts
        · simpa [Token.isPlain] using hplain
        · rw [← hv, ← hspell]
          rfl
        · intro d hd
          obtain rfl : c = d := by simpa using hd
          refine ⟨_, rfl, ?_⟩
          constructor
          · simp
          · rintro rfl
            simp [isBreakChar] at hc
      | false =>
        have hm : ¬ m.marker <+: c :: (u ++ tail) := hclear [] (c :: u) rfl (by simp)
        have hpair : ∀ d ∈ u.head?, arePair c d = false := by
          intro d _
          simp_all [arePair, isBreakChar]
        obtain ⟨ts, hts, hplain, hspell, -⟩ := ih u.length (by simp [← hlen]) u
          (position + c.utf8Size) line rfl (Clear.of_append (u := [c]) hclear)
        refine ⟨⟨.character c, position, line⟩ :: ts, ?_, ?_, ?_, ?_⟩
        · rw [List.cons_append,
            tokensFrom_of_nextLexeme (nextLexeme_character hc hm) (by simp),
            lineBreaks_cons hpair]
          simpa [Mode.after, Lexeme.text, Lexeme.lines, Nat.add_assoc, hc] using hts
        · simpa [Token.isPlain] using hplain
        · rw [← hspell]
          rfl
        · intro d hd
          obtain rfl : c = d := by simpa using hd
          exact ⟨_, rfl, by simp⟩

/-! ## Parts by their first tokens -/

/-- Plain tokens in front are taken up to the first that is not plain. -/
theorem takeWhile_isPlain {ts : List Token} (rest : List Token)
    (hts : ∀ t ∈ ts, t.isPlain = true) (hrest : ∀ r ∈ rest.head?, r.isPlain = false) :
    (ts ++ rest).takeWhile Token.isPlain = ts ∧ (ts ++ rest).dropWhile Token.isPlain = rest := by
  rw [List.takeWhile_append_of_pos hts, List.dropWhile_append_of_pos hts]
  cases rest with
  | nil => simp
  | cons r rest =>
    have hr : r.isPlain = false := hrest r rfl
    simp [hr]

/-- **A literal** is made of the plain tokens in front. -/
theorem Part.ofTokens_literal {t : Token} {ts rest : List Token}
    (hts : ∀ x ∈ t :: ts, x.isPlain = true) (hrest : ∀ r ∈ rest.head?, r.isPlain = false) :
    Part.ofTokens (t :: ts ++ rest) = (Part.ofTokens rest).map fun parts =>
      ⟨String.ofList (spell (t :: ts)), none, t.position, t.line⟩ :: parts := by
  have ht : t.isPlain = true := hts t (List.mem_cons_self ..)
  obtain ⟨htake, hdrop⟩ := takeWhile_isPlain rest
    (fun x hx => hts x (List.mem_cons_of_mem _ hx)) hrest
  rw [List.cons_append, Part.ofTokens]
  split
  · simp_all [Token.isPlain]
  · simp_all [Token.isPlain]
  · simp_all [Token.isPlain]
  · rw [htake, hdrop]
    rfl

/-- **A block** is made of its opening marker, the plain tokens behind it and its closing
marker. -/
theorem Part.ofTokens_block {t e : Token} {inner rest : List Token} (ht : t.lexeme = .blockStart)
    (he : e.lexeme = .blockEnd) (hinner : ∀ x ∈ inner, x.isPlain = true) :
    Part.ofTokens (t :: (inner ++ e :: rest)) =
      (Part.ofTokens (afterBlock inner rest)).map fun parts =>
        ⟨String.ofList (t.text ++ spell inner ++ e.text),
          (droppedBreak inner rest).map fun b => String.ofList b.text, t.position, t.line⟩ ::
          parts := by
  obtain ⟨htake, hdrop⟩ := takeWhile_isPlain (e :: rest) hinner
    (by simp [Token.isPlain, he])
  rw [Part.ofTokens]
  split
  · simp_all
  · simp_all
  · split
    · simp_all
    · rename_i e' rest' h
      obtain ⟨rfl, rfl⟩ : e = e' ∧ rest = rest' := by
        rw [hdrop] at h
        simpa using h
      dsimp only
      rw [he, htake]
      rfl
  · simp_all

/-- **A block that is never closed** is an error at its opening marker. -/
theorem Part.ofTokens_open {t e : Token} {inner rest : List Token} (ht : t.lexeme = .blockStart)
    (he : e.lexeme = .finish) (hinner : ∀ x ∈ inner, x.isPlain = true) :
    Part.ofTokens (t :: (inner ++ e :: rest)) = .error (.unterminatedBlock t.position t.line) := by
  obtain ⟨-, hdrop⟩ := takeWhile_isPlain (e :: rest) hinner
    (by simp [Token.isPlain, he])
  rw [Part.ofTokens]
  split
  · simp_all
  · simp_all
  · split
    · simp_all
    · rename_i e' rest' h
      obtain ⟨rfl, rfl⟩ : e = e' ∧ rest = rest' := by
        rw [hdrop] at h
        simpa using h
      dsimp only
      rw [he]
  · simp_all

end Stencil.Template
