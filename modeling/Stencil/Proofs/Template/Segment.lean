import Stencil.Proofs.Template.Run
import Stencil.Proofs.Text.Occurrence
set_option autoImplicit false

/-!
# Segments of a source

A source is cut into segments by searching for its markers: what stands before the first opening
marker is a literal, and a block ends at the first closing marker behind its opening one. This
says without tokens what the parts of a source are.

## Main definitions

* `Stencil.Template.Segment` — a text with the line break dropped behind it.
* `Stencil.Template.cut` — the segments of a source, and what an open block leaves.
* `Stencil.Template.assemble` — segments with their places, as parts.

## Main results

* `Stencil.Template.split_eq_assemble` — the parts of a source are its segments.
-/

namespace Stencil.Template

open Stencil.Text

/-! ## Segments -/

/-- **A literal or a block,** and the line break that is dropped behind it. -/
structure Segment where
  text : List Char
  dropped : Option (List Char)
  deriving DecidableEq, Repr

/-- A segment as it stands in the source. -/
def Segment.raw (g : Segment) : List Char := g.text ++ g.dropped.getD []

/-- The source of a list of segments. -/
def rawText (gs : List Segment) : List Char := gs.flatMap Segment.raw

@[simp] theorem rawText_nil : rawText [] = [] := rfl

@[simp] theorem rawText_cons (g : Segment) (gs : List Segment) :
    rawText (g :: gs) = g.raw ++ rawText gs := rfl

@[simp] theorem rawText_append (gs hs : List Segment) :
    rawText (gs ++ hs) = rawText gs ++ rawText hs := List.flatMap_append

/-- The segment of a part. -/
def Part.segment (p : Part) : Segment := ⟨p.text.toList, p.skippedBreak.map String.toList⟩

/-- A segment at a place. -/
def Segment.at (g : Segment) (position line : Nat) : Part where
  text := String.ofList g.text
  skippedBreak := g.dropped.map String.ofList
  position
  line

@[simp] theorem Segment.segment_at (g : Segment) (position line : Nat) :
    (g.at position line).segment = g := by
  obtain ⟨text, dropped⟩ := g
  cases dropped <;> simp [Segment.at, Part.segment]

/-- The text of a block with a given inside. -/
def blockText (body : List Char) : List Char := Mode.outside.marker ++ body ++ Mode.inside.marker

/-- The line break that is dropped behind a block: none if the block writes a value. -/
def droppedBehind (body after : List Char) : Option LineBreak :=
  if body.head? = some '=' then none else breakAt after

/-- What follows a dropped line break. -/
def behindBreak (b : Option LineBreak) (after : List Char) : List Char :=
  after.drop ((b.map LineBreak.text).getD []).length


/-- A break is dropped only where it is in front. -/
theorem breakAt_of_droppedBehind {body s : List Char} {b : LineBreak}
    (h : some b = droppedBehind body s) : breakAt s = some b := by
  unfold droppedBehind at h
  split at h
  · cases h
  · exact h.symm

/-- A dropped line break and what follows it are what follows the block. -/
theorem append_behindBreak (body after : List Char) :
    ((droppedBehind body after).map LineBreak.text).getD [] ++
      behindBreak (droppedBehind body after) after = after := by
  cases h : droppedBehind body after with
  | none => simp [behindBreak]
  | some b =>
    exact List.prefix_iff_eq_append.mp (text_prefix_of_breakAt (breakAt_of_droppedBehind h.symm))

/-- The text without its first literal is shorter. -/
theorem length_lt_of_literal {s rest lit : List Char} {d : Char}
    (h : findText Mode.outside.marker s = some (d :: lit, rest)) :
    (Mode.outside.marker ++ rest).length < s.length := by
  rw [(findText_eq_some_iff.mp h).1]
  simp only [List.length_append, List.length_cons]
  omega

/-- The text without its first block is shorter. -/
theorem length_lt_of_block {s rest body after : List Char}
    (h : findText Mode.outside.marker s = some ([], rest))
    (h' : findText Mode.inside.marker rest = some (body, after)) (b : Option LineBreak) :
    (behindBreak b after).length < s.length := by
  rw [(findText_eq_some_iff.mp h).1, (findText_eq_some_iff.mp h').1]
  simp [behindBreak, Mode.marker]
  omega

/-- **The segments of a source,** and what follows the opening marker of a block that is never
closed. -/
def cut (s : List Char) : List Segment × Option (List Char) :=
  match _h : findText Mode.outside.marker s with
  | none => (if s.isEmpty then [] else [⟨s, none⟩], none)
  | some (d :: lit, rest) =>
    let (gs, left) := cut (Mode.outside.marker ++ rest)
    (⟨d :: lit, none⟩ :: gs, left)
  | some ([], rest) =>
    match _h' : findText Mode.inside.marker rest with
    | none => ([], some rest)
    | some (body, after) =>
      let b := droppedBehind body after
      let (gs, left) := cut (behindBreak b after)
      (⟨blockText body, b.map LineBreak.text⟩ :: gs, left)
termination_by s.length
decreasing_by
  · exact length_lt_of_literal ‹_›
  · exact length_lt_of_block ‹_› ‹_› _

/-- **Segments as parts,** from a place on. A block that is left open is an error at the end. -/
def assemble (position line : Nat) :
    List Segment → Option (List Char) → Except SyntaxError (List Part)
  | [], none => .ok []
  | [], some _ => .error (.unterminatedBlock position line)
  | g :: gs, left =>
    (assemble (position + utf8Length g.raw) (line + lineBreaks g.raw) gs left).map
      (g.at position line :: ·)

/-! ## The parts of a source -/

/-- Before the first opening marker a text is clear. -/
theorem clear_of_firstAt {m : Mode} {u s : List Char}
    (h : FirstAt m.marker u (u ++ (m.marker ++ s))) : Clear m u (m.marker ++ s) := by
  intro v w hu hw hp
  have hpre : v ++ m.marker <+: u ++ (m.marker ++ s) := by
    rw [hu, List.append_assoc]
    exact (List.prefix_append_right_inj v).mpr hp
  have hle := h.2 v hpre
  rw [hu, List.length_append] at hle
  have : 0 < w.length := List.length_pos_iff.mpr hw
  omega

/-- A text without opening or closing markers is clear. -/
theorem clear_of_not_infix {m : Mode} {s : List Char} (h : ¬ m.marker <:+: s) :
    Clear m s [] := by
  intro v w hs _ hp
  rw [List.append_nil] at hp
  exact h (hs ▸ hp.isInfix.trans (List.suffix_append v w).isInfix)

/-- No marker begins with a break character. -/
theorem head?_marker (m : Mode) (s : List Char) :
    ∀ c ∈ (m.marker ++ s).head?, isBreakChar c = false := by
  cases m <;> simp [Mode.marker, isBreakChar]

/-- The tokens from an opening marker on. -/
theorem tokensFrom_blockStart (position line : Nat) (s : List Char) :
    tokensFrom ⟨.outside, position, line, Mode.outside.marker ++ s⟩ =
      ⟨.blockStart, position, line⟩ :: tokensFrom ⟨.inside, position + 2, line, s⟩ :=
  tokensFrom_of_nextLexeme (s := ⟨.outside, position, line, Mode.outside.marker ++ s⟩)
    (nextLexeme_marker .outside s) (by simp)

/-- The tokens from a closing marker on. -/
theorem tokensFrom_blockEnd (position line : Nat) (s : List Char) :
    tokensFrom ⟨.inside, position, line, Mode.inside.marker ++ s⟩ =
      ⟨.blockEnd, position, line⟩ :: tokensFrom ⟨.outside, position + 2, line, s⟩ :=
  tokensFrom_of_nextLexeme (s := ⟨.inside, position, line, Mode.inside.marker ++ s⟩)
    (nextLexeme_marker .inside s) (by simp)

/-- **The first part of a source that begins with a literal.** -/
theorem ofTokens_tokensFrom_literal {u tail : List Char} (hu : u ≠ [])
    (hclear : Clear .outside u tail)
    (htail : tail = [] ∨ ∃ r, tail = Mode.outside.marker ++ r) (position line : Nat) :
    Part.ofTokens (tokensFrom ⟨.outside, position, line, u ++ tail⟩) =
      (Part.ofTokens (tokensFrom
        ⟨.outside, position + utf8Length u, line + lineBreaks u, tail⟩)).map
        ((Segment.mk u none).at position line :: ·) := by
  have hbreak : ∀ c ∈ tail.head?, isBreakChar c = false := by
    rcases htail with rfl | ⟨r, rfl⟩
    · simp
    · exact head?_marker .outside r
  have hfirst : ∀ t ∈ (tokensFrom
      ⟨.outside, position + utf8Length u, line + lineBreaks u, tail⟩).head?,
      t.isPlain = false := by
    rcases htail with rfl | ⟨r, rfl⟩
    · simp [tokensFrom_nil, Token.isPlain]
    · simp [tokensFrom_blockStart, Token.isPlain]
  obtain ⟨ts, hts, hplain, hspell, hhead⟩ :=
    tokensFrom_plain hbreak u.length u position line rfl hclear
  obtain ⟨c, u', rfl⟩ := List.exists_cons_of_ne_nil hu
  obtain ⟨l, hl, -⟩ := hhead c rfl
  cases ts with
  | nil => simp at hl
  | cons t ts =>
    obtain rfl : t = ⟨l, position, line⟩ := by simpa using hl
    rw [hts, Part.ofTokens_literal hplain hfirst, hspell]
    rfl

/-- The number of lines of a block is that of its inside, and one for a dropped break. -/
theorem lineBreaks_raw_block (body : List Char) (b : Option LineBreak) :
    lineBreaks (Segment.mk (blockText body) (b.map LineBreak.text)).raw =
      lineBreaks body + b.isSome.toNat := by
  have hdrop : lineBreaks ((b.map LineBreak.text).getD []) = b.isSome.toNat := by
    cases b with
    | none => rfl
    | some b => cases b <;> rfl
  have hbody : lineBreaks (body ++ ['%', '>']) = lineBreaks body :=
    lineBreaks_append (by simp [arePair])
  have hend : lineBreaks ((body ++ ['%', '>']) ++ (b.map LineBreak.text).getD []) =
      lineBreaks (body ++ ['%', '>']) + lineBreaks ((b.map LineBreak.text).getD []) :=
    lineBreaks_append (by simp [arePair])
  have hstart : lineBreaks (['<', '%'] ++ ((body ++ ['%', '>']) ++ (b.map LineBreak.text).getD []))
      = 0 + lineBreaks ((body ++ ['%', '>']) ++ (b.map LineBreak.text).getD []) :=
    lineBreaks_append (by simp [arePair])
  have hraw : (Segment.mk (blockText body) (b.map LineBreak.text)).raw =
      ['<', '%'] ++ ((body ++ ['%', '>']) ++ (b.map LineBreak.text).getD []) := by
    simp [Segment.raw, blockText, Mode.marker]
  rw [hraw, hstart, hend, hbody, hdrop, Nat.zero_add]

/-- What is dropped from the tokens behind a block is the break behind its text. -/
theorem droppedBreak_tokensFrom {body : List Char} (after : List Char) {ts : List Token}
    (hvalue : writesValue ts = (body.head? == some '=')) (position line : Nat) :
    let b := droppedBehind body after
    let rest := tokensFrom ⟨.outside, position, line, after⟩
    droppedBreak ts rest = b ∧
      afterBlock ts rest = tokensFrom ⟨.outside,
        position + utf8Length ((b.map LineBreak.text).getD []), line + b.isSome.toNat,
        behindBreak b after⟩ := by
  intro b rest
  by_cases hv : body.head? = some '='
  · have hb : b = none := by simp [b, droppedBehind, hv]
    have hd : droppedBreak ts rest = none := by
      cases rest with
      | nil => rfl
      | cons t us => simp [droppedBreak, hvalue, hv]
    rw [hb]
    exact ⟨hd, by simp [afterBlock, hd, behindBreak, rest]⟩
  · have hvalue : writesValue ts = false := by simp [hvalue, hv]
    have hb : b = breakAt after := by simp [b, droppedBehind, hv]
    cases h : breakAt after with
    | none =>
      obtain ⟨t, us, hus, hne⟩ := tokensFrom_of_breakAt_eq_none .outside position line h
      have hd : droppedBreak ts rest = none := by
        simp only [rest, hus, droppedBreak, hvalue]
        split
        · exact absurd ‹_› (hne _)
        · rfl
      rw [hb, h]
      exact ⟨hd, by simp [afterBlock, hd, behindBreak, rest]⟩
    | some lb =>
      obtain ⟨r, rfl⟩ := text_prefix_of_breakAt h
      have hrest := tokensFrom_break .outside position line h
      have hd : droppedBreak ts rest = some lb := by
        simp [rest, hrest, droppedBreak, hvalue]
      have htail : afterBlock ts rest = rest.tail := by simp [afterBlock, hd]
      rw [hb, h, htail]
      exact ⟨hd, by simp [rest, hrest, behindBreak]⟩

/-- **The first part of a source that begins with a block.** -/
theorem ofTokens_tokensFrom_block {body after : List Char}
    (hclear : Clear .inside body (Mode.inside.marker ++ after)) (position line : Nat) :
    let b := droppedBehind body after
    let g : Segment := ⟨blockText body, b.map LineBreak.text⟩
    Part.ofTokens (tokensFrom ⟨.outside, position, line,
        Mode.outside.marker ++ (body ++ (Mode.inside.marker ++ after))⟩) =
      (Part.ofTokens (tokensFrom ⟨.outside, position + utf8Length g.raw,
        line + lineBreaks g.raw, behindBreak b after⟩)).map (g.at position line :: ·) := by
  intro b g
  obtain ⟨ts, hts, hplain, hspell, hhead⟩ := tokensFrom_plain (head?_marker .inside after)
    body.length body (position + 2) line rfl hclear
  have hvalue : writesValue ts = (body.head? == some '=') := by
    cases body with
    | nil =>
      cases ts with
      | nil => rfl
      | cons t ts =>
        have := Lexeme.text_ne_nil (l := t.lexeme) (by
          rintro h
          simpa [Token.isPlain, h] using hplain t (List.mem_cons_self ..))
        simp_all [spell, Token.text]
    | cons c body =>
      obtain ⟨l, hl, heq⟩ := hhead c rfl
      cases ts with
      | nil => simp at hl
      | cons t ts =>
        obtain rfl : t = ⟨l, position + 2, line⟩ := by simpa using hl
        rw [Bool.eq_iff_iff]
        simp [writesValue, Token.isChar, heq]
  obtain ⟨hdropped, hafter⟩ := droppedBreak_tokensFrom after hvalue
    (position + 2 + utf8Length body + 2) (line + lineBreaks body)
  have hpos : position + utf8Length g.raw =
      position + 2 + utf8Length body + 2 + utf8Length ((b.map LineBreak.text).getD []) := by
    have hstart : utf8Length Mode.outside.marker = 2 := rfl
    have hend : utf8Length Mode.inside.marker = 2 := rfl
    simp only [g, Segment.raw, blockText, utf8Length_append, hstart, hend]
    omega
  have hline : line + lineBreaks g.raw = line + lineBreaks body + b.isSome.toNat := by
    rw [lineBreaks_raw_block, Nat.add_assoc]
  rw [tokensFrom_blockStart, hts, tokensFrom_blockEnd,
    Part.ofTokens_block rfl rfl hplain, hspell, hdropped, hafter, hpos, hline]
  simp [g, b, Segment.at, Token.text, Lexeme.text, blockText, Mode.marker, Function.comp_def]

/-- **The parts of the tokens from a place on** are the segments of what is left there.

**Proof sketch.** Induction along `cut`, which takes one segment at a time; what the scanner makes
of that segment is known, and it stands outside a block behind it. -/
theorem ofTokens_tokensFrom (s : List Char) (position line : Nat) :
    Part.ofTokens (tokensFrom ⟨.outside, position, line, s⟩) =
      assemble position line (cut s).1 (cut s).2 := by
  fun_induction cut s generalizing position line with
  | case1 s h =>
    have hclear := clear_of_not_infix (findText_eq_none_iff.mp h)
    cases s with
    | nil =>
      rw [tokensFrom_nil, Part.ofTokens]
      rfl
    | cons c s =>
      have hlit := ofTokens_tokensFrom_literal (List.cons_ne_nil c s) hclear (.inl rfl)
        position line
      rw [List.append_nil] at hlit
      rw [hlit, tokensFrom_nil, Part.ofTokens]
      rfl
  | case2 s d lit rest h gs left hcut ih =>
    obtain ⟨hs, hfirst⟩ := findText_eq_some_iff.mp h
    rw [List.append_assoc] at hs
    rw [hs] at hfirst ⊢
    rw [ofTokens_tokensFrom_literal (List.cons_ne_nil d lit) (clear_of_firstAt hfirst)
      (.inr ⟨rest, rfl⟩), ih, hcut]
    simp [assemble, Segment.raw]
  | case3 s rest h h' =>
    obtain ⟨hs, -⟩ := findText_eq_some_iff.mp h
    have hclear := clear_of_not_infix (findText_eq_none_iff.mp h')
    have hend : ∀ c ∈ ([] : List Char).head?, isBreakChar c = false := by simp
    obtain ⟨ts, hts, hplain, -, -⟩ := tokensFrom_plain hend rest.length rest (position + 2) line
      rfl hclear
    rw [List.append_nil] at hts
    rw [hs, List.nil_append, tokensFrom_blockStart, hts, tokensFrom_nil,
      Part.ofTokens_open rfl rfl hplain]
    rfl
  | case4 s rest h body after h' b gs left hcut ih =>
    obtain ⟨hs, -⟩ := findText_eq_some_iff.mp h
    obtain ⟨hrest, hfirst⟩ := findText_eq_some_iff.mp h'
    rw [List.append_assoc] at hrest
    rw [hrest] at hfirst hs
    rw [hs, List.nil_append, ofTokens_tokensFrom_block (clear_of_firstAt hfirst), ih, hcut]
    rfl

/-- **The parts of a source are its segments,** each with its place. -/
theorem split_eq_assemble (source : String) :
    split source = assemble 0 1 (cut source.toList).1 (cut source.toList).2 :=
  ofTokens_tokensFrom source.toList 0 1

end Stencil.Template
