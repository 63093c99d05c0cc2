import Mathlib.Data.List.Chain
import Mathlib.Data.List.Induction
import Stencil.Proofs.Template.Run
set_option autoImplicit false

/-!
# What the tokens of a source are

The tokens of a source said without the scanner. A token is handed out as its kind, its place and
its text; a list of such tokens is the tokenization of a source if the texts spell the source, each
text is one that its kind can have, the markers alternate, and nothing is left apart that belongs
together: no marker as two characters, no pair of break characters as two line breaks. There is
exactly one such list, and it is the scanner's.

## Main definitions

* `Stencil.Template.Kind`, `RawToken`, `Token.raw` — a token as it is handed out.
* `Stencil.Template.Inside` — whether the last marker opens a block.
* `Stencil.Template.IsTokenization` — what makes a list of tokens the tokenization of a source.
* `Stencil.Template.Scan.behind` — the scanner behind given tokens.

## Main results

* `Stencil.Template.IsTokenization.suffix_eq` — what the scanner makes of the text behind given
  tokens is the rest of the tokenization.
* `Stencil.Template.exists_rest_of_append` — behind each token the scanner is where the tokens say.
* `Stencil.Template.tokenize_eq_iff_isTokenization` — the tokens of a source are its only
  tokenization.
-/

namespace Stencil.Template

open Stencil.Text

/-! ## Tokens as they are handed out -/

/-- **The kinds of tokens.** -/
inductive Kind where
  | blockStart
  | blockEnd
  | lineBreak
  | character
  | finish
  deriving DecidableEq, Repr

/-- The kind of a piece. -/
def Lexeme.kind : Lexeme → Kind
  | blockStart => .blockStart
  | blockEnd => .blockEnd
  | lineBreak _ => .lineBreak
  | character _ => .character
  | finish => .finish

theorem Lexeme.kind_eq_blockStart_iff {l : Lexeme} : l.kind = .blockStart ↔ l = .blockStart := by
  cases l <;> simp [kind]

theorem Lexeme.kind_eq_blockEnd_iff {l : Lexeme} : l.kind = .blockEnd ↔ l = .blockEnd := by
  cases l <;> simp [kind]

theorem Lexeme.kind_eq_finish_iff {l : Lexeme} : l.kind = .finish ↔ l = .finish := by
  cases l <;> simp [kind]

/-- **A token as it is handed out:** its kind, its byte offset, its line and its text. -/
structure RawToken where
  kind : Kind
  position : Nat
  line : Nat
  text : List Char
  deriving DecidableEq, Repr

/-- A token of the scanner as it is handed out. -/
def Token.raw (t : Token) : RawToken := ⟨t.lexeme.kind, t.position, t.line, t.text⟩

/-- Whether a kind is one of the two markers. -/
def Kind.isMarker : Kind → Bool
  | blockStart => true
  | blockEnd => true
  | _ => false

/-- The markers among the tokens, in their order. -/
def markers (ts : List RawToken) : List Kind := (ts.map RawToken.kind).filter Kind.isMarker

/-- The text that the tokens spell. -/
def spelling (ts : List RawToken) : List Char := ts.flatMap RawToken.text

/-- The number of line breaks among the tokens. -/
def breakCount (ts : List RawToken) : Nat := ts.countP (·.kind = .lineBreak)

/-- **Behind these tokens one is inside a block:** the last marker opens one. -/
def Inside (before : List RawToken) : Prop := (markers before).getLast? = some .blockStart

instance (before : List RawToken) : Decidable (Inside before) :=
  inferInstanceAs (Decidable (_ = _))

@[simp] theorem markers_append (ts us : List RawToken) :
    markers (ts ++ us) = markers ts ++ markers us := by
  simp [markers]

@[simp] theorem spelling_nil : spelling [] = [] := rfl

@[simp] theorem spelling_cons (t : RawToken) (ts : List RawToken) :
    spelling (t :: ts) = t.text ++ spelling ts := rfl

@[simp] theorem spelling_append (ts us : List RawToken) :
    spelling (ts ++ us) = spelling ts ++ spelling us := by
  simp [spelling]

@[simp] theorem breakCount_append (ts us : List RawToken) :
    breakCount (ts ++ us) = breakCount ts + breakCount us := by
  simp [breakCount]

/-- A token is as many line breaks as it has lines. -/
theorem breakCount_raw_cons (t : Token) (ts : List RawToken) :
    breakCount (t.raw :: ts) = t.lexeme.lines + breakCount ts := by
  obtain ⟨l, position, line⟩ := t
  cases l <;> simp [breakCount, Token.raw, Lexeme.kind, Lexeme.lines, Nat.add_comm]

/-- The markers of a list by its first token. -/
theorem markers_cons (t : RawToken) (ts : List RawToken) :
    markers (t :: ts) = if t.kind.isMarker then t.kind :: markers ts else markers ts := by
  cases h : t.kind.isMarker <;> simp [markers, h]

/-- **The tokenization of a source.** -/
structure IsTokenization (source : List Char) (ts : List RawToken) : Prop where
  /-- The texts of the tokens make up the source. -/
  spelled : spelling ts = source
  /-- The last token is the first end token. It is empty and sits at the end of the source. -/
  ended : ∃ before e, ts = before ++ [e] ∧ e.kind = .finish ∧ e.text = [] ∧
    e.position = utf8Length source ∧ ∀ t ∈ before, t.kind ≠ .finish
  /-- Each other token has a text. -/
  nonempty : ∀ t ∈ ts, t.kind ≠ .finish → t.text ≠ []
  /-- A token sits behind the texts of the tokens before it. -/
  position : ∀ before t after, ts = before ++ t :: after → t.position = utf8Length (spelling before)
  /-- The line of a token is one more than the line breaks before it. -/
  line : ∀ before t after, ts = before ++ t :: after → t.line = 1 + breakCount before
  /-- A character token is one character, and none of the two that break lines. -/
  character : ∀ t ∈ ts, t.kind = .character → ∃ c, t.text = [c] ∧ c ≠ '\r' ∧ c ≠ '\n'
  blockStart : ∀ t ∈ ts, t.kind = .blockStart → t.text = ['<', '%']
  blockEnd : ∀ t ∈ ts, t.kind = .blockEnd → t.text = ['%', '>']
  lineBreak : ∀ t ∈ ts, t.kind = .lineBreak →
    t.text = ['\n'] ∨ t.text = ['\r'] ∨ t.text = ['\r', '\n'] ∨ t.text = ['\n', '\r']
  /-- The first marker opens a block. -/
  opening : ∀ k ∈ (markers ts).head?, k = .blockStart
  /-- No marker comes twice in a row. -/
  alternating : (markers ts).IsChain (· ≠ ·)
  /-- Outside of a block no two character tokens make up `<%`. -/
  noStart : ∀ before t u after, ts = before ++ t :: u :: after → ¬ Inside before →
    t.kind = .character → u.kind = .character → ¬ (t.text = ['<'] ∧ u.text = ['%'])
  /-- Inside a block no two character tokens make up `%>`. -/
  noEnd : ∀ before t u after, ts = before ++ t :: u :: after → Inside before →
    t.kind = .character → u.kind = .character → ¬ (t.text = ['%'] ∧ u.text = ['>'])
  /-- No line break of one character has the other half of a pair behind it. -/
  longest : ∀ before t u after, ts = before ++ t :: u :: after → t.kind = .lineBreak →
    (t.text = ['\n'] → u.text.head? ≠ some '\r') ∧ (t.text = ['\r'] → u.text.head? ≠ some '\n')

/-! ## Small facts on texts -/

/-- A text begins with one character exactly when that is its first. -/
theorem singleton_prefix_iff {c : Char} {s : List Char} : [c] <+: s ↔ s.head? = some c := by
  cases s with
  | nil => simp
  | cons d s => simp [List.cons_prefix_cons, eq_comm]

/-- A line break that the next character does not complete is the one at the front. -/
theorem breakAt_of_head? {b : LineBreak} {s : List Char}
    (hlf : b.text = ['\n'] → s.head? ≠ some '\r') (hcr : b.text = ['\r'] → s.head? ≠ some '\n') :
    breakAt (b.text ++ s) = some b := by
  cases s with
  | nil => cases b <;> rfl
  | cons c s => cases b <;> simp_all [LineBreak.text, breakAt_lf, breakAt_cr]

/-! ## The scanner behind given tokens -/

/-- The mode behind given tokens. -/
def modeBehind (before : List RawToken) : Mode := if Inside before then .inside else .outside

/-- **The scanner behind given tokens,** with a given text in front of it. -/
def Scan.behind (before : List RawToken) (rest : List Char) : Scan :=
  ⟨modeBehind before, utf8Length (spelling before), 1 + breakCount before, rest⟩

/-- Behind one more token the mode is the one that the token switches to. -/
theorem modeBehind_concat (before : List RawToken) (t : Token) :
    modeBehind (before ++ [t.raw]) = (modeBehind before).after t.lexeme := by
  obtain ⟨l, position, line⟩ := t
  cases l <;>
    simp [modeBehind, Inside, markers, Token.raw, Lexeme.kind, Kind.isMarker, Mode.after]

/-- **The scanner moves on by its token.** -/
theorem Scan.behind_concat (before : List RawToken) (rest : List Char) :
    (Scan.behind before rest).advance =
      Scan.behind (before ++ [(Scan.behind before rest).token.raw])
        (nextLexeme (modeBehind before) rest).2 := by
  have hbreak (t : Token) : breakCount [t.raw] = t.lexeme.lines := breakCount_raw_cons t []
  conv_rhs => rw [Scan.behind, modeBehind_concat, breakCount_append, hbreak, spelling_append,
    utf8Length_append]
  simp [Scan.advance, Scan.behind, Scan.token, Token.raw, Token.text, Nat.add_assoc]

theorem Scan.behind_nil (source : List Char) : Scan.behind [] source = Scan.start source := rfl

/-- The tokens behind given tokens, by the first of them. -/
theorem tokensFrom_behind {before : List RawToken} {rest : List Char}
    (h : (Scan.behind before rest).token.lexeme ≠ .finish) :
    tokensFrom (.behind before rest) = (Scan.behind before rest).token ::
      tokensFrom (.behind (before ++ [(Scan.behind before rest).token.raw])
        (nextLexeme (modeBehind before) rest).2) := by
  rw [tokensFrom, dif_neg h, Scan.behind_concat]

/-- **Behind each token the scanner is where the tokens say.** -/
theorem exists_rest_of_append {source : List Char} {before after : List RawToken}
    (h : (tokensFrom (.start source)).map Token.raw = before ++ after) (hne : after ≠ []) :
    ∃ rest, after = (tokensFrom (.behind before rest)).map Token.raw := by
  induction before using List.reverseRecOn generalizing after with
  | nil => exact ⟨source, by rw [Scan.behind_nil, h, List.nil_append]⟩
  | append_singleton before t ih =>
    obtain ⟨rest, hrest⟩ := ih (by rw [h, List.append_assoc]; rfl) (List.cons_ne_nil t after)
    by_cases hl : (Scan.behind before rest).token.lexeme = .finish
    · -- The end token is the last one, and there is one more.
      rw [tokensFrom, dif_pos hl] at hrest
      simp [hne] at hrest
    · rw [tokensFrom_behind hl, List.map_cons] at hrest
      obtain ⟨rfl, hafter⟩ := List.cons.inj hrest
      exact ⟨_, hafter⟩

/-! ## A tokenization is the scanner's -/

namespace IsTokenization

variable {source : List Char} {ts before after : List RawToken} {t : RawToken}

/-- The end token is empty, and nothing is behind it. -/
theorem of_finish (h : IsTokenization source ts) (hts : ts = before ++ t :: after)
    (hk : t.kind = .finish) : t.text = [] ∧ after = [] := by
  obtain ⟨front, e, he, -, hempty, -, hfront⟩ := h.ended
  rw [hts] at he
  rcases List.append_eq_append_iff.mp he with ⟨as, rfl, has⟩ | ⟨as, rfl, has⟩
  · cases as with
    | nil =>
      obtain ⟨rfl, rfl⟩ := List.cons.inj has
      exact ⟨hempty, rfl⟩
    | cons a as =>
      obtain rfl : t = a := (List.cons.inj has).1
      exact absurd hk (hfront t (by simp))
  · cases as with
    | nil =>
      obtain ⟨rfl, rfl⟩ := List.cons.inj has
      exact ⟨hempty, rfl⟩
    | cons a as => simp at has

/-- Behind a token that is not the end there is one more. -/
theorem ne_nil_of_ne_finish (h : IsTokenization source ts) (hts : ts = before ++ t :: after)
    (hk : t.kind ≠ .finish) : after ≠ [] := by
  rintro rfl
  obtain ⟨front, e, he, hfinish, -⟩ := h.ended
  obtain ⟨-, rfl⟩ := List.append_inj' (hts.symm.trans he) rfl |>.imp_right List.singleton_inj.mp
  exact hk hfinish

/-- The text from a token on begins as the token does. -/
theorem head?_spelling (h : IsTokenization source ts) (hts : ts = before ++ t :: after) :
    (spelling (t :: after)).head? = t.text.head? := by
  by_cases hk : t.kind = .finish
  · obtain ⟨-, rfl⟩ := h.of_finish hts hk
    simp
  · have hne : t.text ≠ [] := h.nonempty t (by simp [hts]) hk
    rw [spelling_cons, List.head?_append_of_ne_nil _ hne]

/-- A marker that opens a block stands outside of every block. -/
theorem not_inside (h : IsTokenization source ts) (hts : ts = before ++ t :: after)
    (hk : t.kind = .blockStart) : ¬ Inside before := by
  intro hin
  have hchain := h.alternating
  rw [hts, markers_append, markers_cons, hk] at hchain
  exact (List.isChain_append.mp hchain).2.2 _ hin _ rfl rfl

/-- A marker that closes a block stands inside of one. -/
theorem inside (h : IsTokenization source ts) (hts : ts = before ++ t :: after)
    (hk : t.kind = .blockEnd) : Inside before := by
  have hchain := h.alternating
  have hopen := h.opening
  rw [hts, markers_append, markers_cons, hk] at hchain hopen
  cases hlast : (markers before).getLast? with
  | none =>
    rw [List.getLast?_eq_none_iff.mp hlast] at hopen
    exact absurd (hopen _ rfl) (by decide)
  | some k =>
    have hne : k ≠ .blockEnd := (List.isChain_append.mp hchain).2.2 k hlast _ rfl
    have hmarker : k.isMarker = true :=
      (List.mem_filter.mp (List.mem_of_mem_getLast? hlast)).2
    cases k with
    | blockStart => exact hlast
    | blockEnd => exact absurd rfl hne
    | _ => simp [Kind.isMarker] at hmarker

/-- A token whose text begins with neither `<` nor a break character is a character, or closes a
block. -/
theorem kind_of_head? (h : IsTokenization source ts) (hts : ts = before ++ t :: after) {d : Char}
    (hd : t.text.head? = some d) (hopen : d ≠ '<') (hbreak : isBreakChar d = false) :
    (t.kind = .character ∧ t.text = [d]) ∨ (t.kind = .blockEnd ∧ d = '%') := by
  have hmem : t ∈ ts := by simp [hts]
  cases hk : t.kind with
  | finish =>
    rw [(h.of_finish hts hk).1] at hd
    cases hd
  | blockStart =>
    rw [h.blockStart t hmem hk] at hd
    exact absurd (Option.some.inj hd).symm hopen
  | blockEnd =>
    rw [h.blockEnd t hmem hk] at hd
    exact .inr ⟨rfl, (Option.some.inj hd).symm⟩
  | lineBreak =>
    rcases h.lineBreak t hmem hk with ht | ht | ht | ht <;>
      · rw [ht] at hd
        obtain rfl := Option.some.inj hd
        exact absurd hbreak (by decide)
  | character =>
    obtain ⟨c, ht, -, -⟩ := h.character t hmem hk
    rw [ht] at hd
    obtain rfl := Option.some.inj hd
    exact .inl ⟨rfl, ht⟩

/-- **The first piece of the text from a token on is that token.** -/
theorem exists_nextLexeme (h : IsTokenization source ts) (hts : ts = before ++ t :: after) :
    ∃ l : Lexeme, l.kind = t.kind ∧ l.text = t.text ∧
      nextLexeme (modeBehind before) (spelling (t :: after)) = (l, spelling after) := by
  have hmem : t ∈ ts := by simp [hts]
  -- What is behind the token begins as the next token does.
  have hnext (hk : t.kind ≠ .finish) : ∃ u after', after = u :: after' ∧
      (spelling after).head? = u.text.head? := by
    obtain ⟨u, after', rfl⟩ := List.exists_cons_of_ne_nil (h.ne_nil_of_ne_finish hts hk)
    have hlater : ts = (before ++ [t]) ++ u :: after' := by simp [hts]
    exact ⟨u, after', rfl, h.head?_spelling hlater⟩
  rw [spelling_cons]
  cases hk : t.kind with
  | finish =>
    obtain ⟨htext, rfl⟩ := h.of_finish hts hk
    exact ⟨.finish, rfl, htext.symm, by rw [htext]; rfl⟩
  | blockStart =>
    have hmode : modeBehind before = .outside := if_neg (h.not_inside hts hk)
    rw [h.blockStart t hmem hk, hmode]
    exact ⟨.blockStart, rfl, rfl, nextLexeme_marker .outside _⟩
  | blockEnd =>
    have hmode : modeBehind before = .inside := if_pos (h.inside hts hk)
    rw [h.blockEnd t hmem hk, hmode]
    exact ⟨.blockEnd, rfl, rfl, nextLexeme_marker .inside _⟩
  | lineBreak =>
    obtain ⟨u, after', rfl, hhead⟩ := hnext (by simp [hk])
    obtain ⟨hlf, hcr⟩ := h.longest before t u after' hts hk
    rw [← hhead] at hlf hcr
    obtain ⟨b, hb⟩ : ∃ b : LineBreak, b.text = t.text := by
      rcases h.lineBreak t hmem hk with ht | ht | ht | ht
      · exact ⟨.lf, ht.symm⟩
      · exact ⟨.cr, ht.symm⟩
      · exact ⟨.crlf, ht.symm⟩
      · exact ⟨.lfcr, ht.symm⟩
    rw [← hb] at hlf hcr ⊢
    exact ⟨.lineBreak b, rfl, rfl, nextLexeme_break _ (breakAt_of_head? hlf hcr)⟩
  | character =>
    obtain ⟨c, ht, hr, hn⟩ := h.character t hmem hk
    obtain ⟨u, after', rfl, hhead⟩ := hnext (by simp [hk])
    refine ⟨.character c, rfl, ht.symm, ?_⟩
    rw [ht, List.singleton_append]
    refine nextLexeme_character (isBreakChar_eq_false_iff.mpr ⟨hn, hr⟩) fun hmarker => ?_
    have hu : ts = before ++ [t] ++ u :: after' := by simp [hts]
    by_cases hin : Inside before
    · rw [modeBehind, if_pos hin, Mode.marker, List.cons_prefix_cons,
        singleton_prefix_iff, hhead] at hmarker
      obtain ⟨rfl, hd⟩ := hmarker
      rcases h.kind_of_head? hu hd (by decide) (by decide) with ⟨hku, htu⟩ | ⟨-, hd⟩
      · exact h.noEnd before t u after' hts hin hk hku ⟨ht, htu⟩
      · exact absurd hd (by decide)
    · rw [modeBehind, if_neg hin, Mode.marker, List.cons_prefix_cons,
        singleton_prefix_iff, hhead] at hmarker
      obtain ⟨rfl, hd⟩ := hmarker
      rcases h.kind_of_head? hu hd (by decide) (by decide) with ⟨hku, htu⟩ | ⟨hku, -⟩
      · exact h.noStart before t u after' hts hin hk hku ⟨ht, htu⟩
      · -- A closing marker would stand inside of a block.
        refine hin ?_
        have hbehind := h.inside hu hku
        rw [Inside, markers_append, markers_cons, hk] at hbehind
        rw [Inside, ← List.append_nil (markers before)]
        exact hbehind

/-- **Behind given tokens the scanner makes the rest of the tokenization.**

**Proof sketch.** Induction on the tokens that are left. The first piece of their text is the first
of them, at the place that the tokens before it give; behind it is the scanner behind one token
more. -/
theorem suffix_eq (h : IsTokenization source ts) (hts : ts = before ++ after) (hne : after ≠ []) :
    after = (tokensFrom (.behind before (spelling after))).map Token.raw := by
  induction after generalizing before with
  | nil => exact absurd rfl hne
  | cons t after ih =>
    obtain ⟨l, hkind, htext, hl⟩ := h.exists_nextLexeme hts
    have htoken : (Scan.behind before (spelling (t :: after))).token =
        ⟨l, t.position, t.line⟩ := by
      rw [Scan.token, Scan.behind, hl, h.position before t after hts, h.line before t after hts]
    have hraw : Token.raw ⟨l, t.position, t.line⟩ = t := by
      rw [Token.raw, hkind, Token.text, htext]
    by_cases hk : t.kind = .finish
    · have hfinish : l = .finish := Lexeme.kind_eq_finish_iff.mp (hkind.trans hk)
      rw [tokensFrom, dif_pos (by rw [htoken, hfinish]), htoken, (h.of_finish hts hk).2,
        List.map_singleton, hraw]
    · have hfinish : l ≠ .finish := fun hl => hk (hkind ▸ Lexeme.kind_eq_finish_iff.mpr hl)
      rw [tokensFrom_behind (by rw [htoken]; exact hfinish), htoken, hraw, hl, List.map_cons, hraw,
        ← ih (by simp [hts]) (h.ne_nil_of_ne_finish hts hk)]

end IsTokenization

/-! ## The scanner makes a tokenization -/

/-- A character piece is none of the two characters that break lines. -/
theorem ne_break_of_nextLexeme {m : Mode} {s : List Char} {c : Char}
    (h : (nextLexeme m s).1 = .character c) : c ≠ '\r' ∧ c ≠ '\n' := by
  match s with
  | [] => simp [nextLexeme] at h
  | [d] => grind [nextLexeme]
  | d :: e :: s => grind [nextLexeme]

/-- Only the marker that counts is made. -/
theorem switch_of_nextLexeme {m : Mode} {s : List Char}
    (h : (nextLexeme m s).1.kind.isMarker = true) : (nextLexeme m s).1 = m.switch := by
  match s with
  | [] => simp [nextLexeme, Lexeme.kind, Kind.isMarker] at h
  | [d] => grind [nextLexeme, Lexeme.kind, Kind.isMarker, Mode.switch]
  | d :: e :: s => cases m <;> grind [nextLexeme, Lexeme.kind, Kind.isMarker, Mode.switch]

/-- **The markers alternate,** from the one that counts at the scanner on. -/
theorem markers_tokensFrom (s : Scan) :
    (∀ k ∈ (markers ((tokensFrom s).map Token.raw)).head?, k = s.mode.switch.kind) ∧
      (markers ((tokensFrom s).map Token.raw)).IsChain (· ≠ ·) := by
  fun_induction tokensFrom s with
  | case1 s h => simp [markers, Token.raw, h, Lexeme.kind, Kind.isMarker]
  | case2 s h ih =>
    rw [List.map_cons, markers_cons]
    split
    case isTrue hm =>
      have hl : s.token.lexeme = s.mode.switch := switch_of_nextLexeme hm
      have hk : s.token.raw.kind = s.mode.switch.kind := congrArg Lexeme.kind hl
      have hmode : s.advance.mode = s.mode.after s.mode.switch := by rw [Scan.advance, hl]
      rw [hk]
      refine ⟨by simp, List.isChain_cons.mpr ⟨fun k hk' => ?_, ih.2⟩⟩
      rw [ih.1 k hk', hmode]
      cases s.mode <;> decide
    case isFalse hm =>
      have hmode : s.advance.mode = s.mode := by
        rw [Scan.advance]
        cases hl : s.token.lexeme <;> simp_all [Token.raw, Lexeme.kind, Kind.isMarker, Mode.after]
      rw [← hmode]
      exact ih

/-- **The tokens from the scanner on** are those before the end, and the end token behind the text
and the line breaks of all of them. -/
theorem exists_tokensFrom_eq (s : Scan) : ∃ before,
    tokensFrom s = before ++ [⟨.finish, s.position + utf8Length s.rest,
      s.line + breakCount ((tokensFrom s).map Token.raw)⟩] ∧
    ∀ t ∈ before, t.lexeme ≠ .finish := by
  fun_induction tokensFrom s with
  | case1 s h =>
    have hrest : s.rest = [] := (nextLexeme_eq_finish_iff s.mode s.rest).mp h
    refine ⟨[], ?_, by simp⟩
    simp [hrest, breakCount, Token.raw, Lexeme.kind, Scan.token, nextLexeme]
  | case2 s h ih =>
    obtain ⟨before, hsplit, hbefore⟩ := ih
    refine ⟨s.token :: before, ?_, List.forall_mem_cons.mpr ⟨h, hbefore⟩⟩
    have hlength : utf8Length s.rest = utf8Length s.token.text + utf8Length s.advance.rest := by
      rw [← utf8Length_append]
      exact congrArg utf8Length (text_append_nextLexeme s.mode s.rest).symm
    have hposition : s.advance.position = s.position + utf8Length s.token.text := rfl
    have hline : s.advance.line = s.line + s.token.lexeme.lines := rfl
    refine congrArg (s.token :: ·) (hsplit.trans ?_)
    rw [hposition, hline, hlength, List.map_cons, breakCount_raw_cons, Nat.add_assoc, Nat.add_assoc]
    rfl

/-- Each token is the one at the scanner somewhere. -/
theorem exists_token_of_mem {s : Scan} {t : Token} (ht : t ∈ tokensFrom s) :
    ∃ s' : Scan, t = s'.token := by
  fun_induction tokensFrom s with
  | case1 s h => exact ⟨s, List.mem_singleton.mp ht⟩
  | case2 s h ih =>
    rcases List.mem_cons.mp ht with rfl | ht
    · exact ⟨s, rfl⟩
    · exact ih ht

section Splits

variable {source : List Char} {before after : List RawToken} {t u : RawToken}

/-- A token of the source is the one at the scanner behind the tokens before it. -/
theorem eq_token_of_append
    (h : (tokensFrom (.start source)).map Token.raw = before ++ t :: after) :
    ∃ rest, t = (Scan.behind before rest).token.raw := by
  obtain ⟨rest, hrest⟩ := exists_rest_of_append h (List.cons_ne_nil t after)
  refine ⟨rest, ?_⟩
  rw [tokensFrom] at hrest
  split at hrest
  · exact (List.cons.inj hrest).1
  · exact (List.cons.inj hrest).1

/-- **Two tokens in a row:** the first is the first piece of a text that goes on with the other. -/
theorem nextLexeme_of_append
    (h : (tokensFrom (.start source)).map Token.raw = before ++ t :: u :: after) :
    ∃ l s, l.kind = t.kind ∧ l.text = t.text ∧ u.text <+: s ∧
      nextLexeme (modeBehind before) (t.text ++ s) = (l, s) := by
  obtain ⟨rest, hrest⟩ := exists_rest_of_append h (List.cons_ne_nil t _)
  by_cases hl : (Scan.behind before rest).token.lexeme = .finish
  · rw [tokensFrom, dif_pos hl] at hrest
    cases (List.cons.inj hrest).2
  · rw [tokensFrom_behind hl, List.map_cons] at hrest
    obtain ⟨rfl, hafter⟩ := List.cons.inj hrest
    have hs : (nextLexeme (modeBehind before) rest).1.text ++
        (nextLexeme (modeBehind before) rest).2 = rest := text_append_nextLexeme _ rest
    refine ⟨(nextLexeme (modeBehind before) rest).1, (nextLexeme (modeBehind before) rest).2,
      rfl, rfl, ?_, ?_⟩
    · have hspell := congrArg spelling hafter
      have hrest' : spelling (u :: after) = (nextLexeme (modeBehind before) rest).2 := by
        rw [hspell, spelling, List.flatMap_map]
        exact text_flatMap_tokensFrom _
      rw [← hrest', spelling_cons]
      exact List.prefix_append _ _
    · exact congrArg (nextLexeme (modeBehind before)) hs

/-- No two characters in a row make up the marker that counts. -/
theorem ne_marker_of_append
    (h : (tokensFrom (.start source)).map Token.raw = before ++ t :: u :: after)
    (hk : t.kind = .character) : t.text ++ u.text ≠ (modeBehind before).marker := by
  intro hmarker
  obtain ⟨l, s, hkind, -, ⟨s, rfl⟩, hl⟩ := nextLexeme_of_append h
  rw [← List.append_assoc, hmarker, nextLexeme_marker] at hl
  obtain rfl := congrArg Prod.fst hl
  rw [← hkind] at hk
  cases hm : modeBehind before <;> rw [hm] at hk <;> cases hk

/-- A character that could be the first half of a pair does not have the other half behind it. -/
theorem ne_pair_of_append
    (h : (tokensFrom (.start source)).map Token.raw = before ++ t :: u :: after)
    {b : LineBreak} {c d : Char} (hb : b.text = [c, d]) (ht : t.text = [c]) :
    u.text.head? ≠ some d := by
  intro hu
  obtain ⟨w, hw⟩ := List.head?_eq_some_iff.mp hu
  obtain ⟨l, s, -, htext, ⟨s, rfl⟩, hl⟩ := nextLexeme_of_append h
  have hpair : nextLexeme (modeBehind before) (b.text ++ (w ++ s)) = (.lineBreak b, w ++ s) :=
    nextLexeme_break _ (breakAt_of_head? (by simp [hb]) (by simp [hb]))
  rw [hb] at hpair
  rw [ht, hw] at hl
  have hl' : l = .lineBreak b := congrArg Prod.fst (hl.symm.trans hpair)
  rw [hl', Lexeme.text, hb, ht] at htext
  cases htext

end Splits

/-- **The tokens of a source are a tokenization of it.** -/
theorem isTokenization_tokensFrom (source : List Char) :
    IsTokenization source ((tokensFrom (.start source)).map Token.raw) := by
  -- A token of the list, as a piece that the scanner makes.
  have hpiece {t : RawToken} (ht : t ∈ (tokensFrom (.start source)).map Token.raw) :
      ∃ m s, t.kind = (nextLexeme m s).1.kind ∧ t.text = (nextLexeme m s).1.text := by
    obtain ⟨t', ht', rfl⟩ := List.mem_map.mp ht
    obtain ⟨s, rfl⟩ := exists_token_of_mem ht'
    exact ⟨s.mode, s.rest, rfl, rfl⟩
  obtain ⟨hopen, hchain⟩ := markers_tokensFrom (.start source)
  obtain ⟨front, hend, hfront⟩ := exists_tokensFrom_eq (.start source)
  have hspelled : spelling ((tokensFrom (.start source)).map Token.raw) = source := by
    rw [spelling, List.flatMap_map]
    exact text_flatMap_tokensFrom (.start source)
  have hposition (before : List RawToken) (t : RawToken) (after : List RawToken)
      (h : (tokensFrom (.start source)).map Token.raw = before ++ t :: after) :
      t.position = utf8Length (spelling before) ∧ t.line = 1 + breakCount before := by
    obtain ⟨rest, rfl⟩ := eq_token_of_append h
    exact ⟨rfl, rfl⟩
  exact {
    spelled := hspelled
    ended := by
      refine ⟨front.map Token.raw, _, by rw [hend, List.map_append, List.map_singleton], rfl, rfl,
        by simp [Token.raw, Scan.start], ?_⟩
      rw [List.forall_mem_map]
      exact fun t ht hk => hfront t ht (Lexeme.kind_eq_finish_iff.mp hk)
    nonempty := by
      intro t ht hk
      obtain ⟨m, s, hkind, htext⟩ := hpiece ht
      rw [htext]
      exact Lexeme.text_ne_nil fun hl => hk (hkind ▸ Lexeme.kind_eq_finish_iff.mpr hl)
    position := fun before t after h => (hposition before t after h).1
    line := fun before t after h => (hposition before t after h).2
    character := by
      intro t ht hk
      obtain ⟨m, s, hkind, htext⟩ := hpiece ht
      rw [hkind] at hk
      cases hl : (nextLexeme m s).1 with
      | character c => exact ⟨c, by rw [htext, hl]; rfl, ne_break_of_nextLexeme hl⟩
      | _ => simp [hl, Lexeme.kind] at hk
    blockStart := by
      intro t ht hk
      obtain ⟨m, s, hkind, htext⟩ := hpiece ht
      rw [hkind, Lexeme.kind_eq_blockStart_iff] at hk
      rw [htext, hk]
      rfl
    blockEnd := by
      intro t ht hk
      obtain ⟨m, s, hkind, htext⟩ := hpiece ht
      rw [hkind, Lexeme.kind_eq_blockEnd_iff] at hk
      rw [htext, hk]
      rfl
    lineBreak := by
      intro t ht hk
      obtain ⟨m, s, hkind, htext⟩ := hpiece ht
      rw [hkind] at hk
      cases hl : (nextLexeme m s).1 with
      | lineBreak b =>
        rw [htext, hl]
        cases b <;> simp [Lexeme.text, LineBreak.text]
      | _ => simp [hl, Lexeme.kind] at hk
    opening := hopen
    alternating := hchain
    noStart := by
      rintro before t u after h hin hk - ⟨ht, hu⟩
      have hne := ne_marker_of_append h hk
      rw [modeBehind, if_neg hin, ht, hu] at hne
      exact hne rfl
    noEnd := by
      rintro before t u after h hin hk - ⟨ht, hu⟩
      have hne := ne_marker_of_append h hk
      rw [modeBehind, if_pos hin, ht, hu] at hne
      exact hne rfl
    longest := fun before t u after h _ =>
      ⟨ne_pair_of_append h (b := .lfcr) rfl, ne_pair_of_append h (b := .crlf) rfl⟩ }

/-- **The tokens of a source are its only tokenization:** the scanner's tokens have the properties
above, and no other list of tokens has them. -/
theorem tokenize_eq_iff_isTokenization (source : String) (ts : List RawToken) :
    (tokenize source).map Token.raw = ts ↔ IsTokenization source.toList ts := by
  constructor
  · rintro rfl
    exact isTokenization_tokensFrom source.toList
  · intro h
    obtain ⟨before, e, hts, -⟩ := h.ended
    have hne : ts ≠ [] := by simp [hts]
    have hsuffix := h.suffix_eq (List.nil_append ts).symm hne
    rw [h.spelled, Scan.behind_nil] at hsuffix
    exact hsuffix.symm

end Stencil.Template
