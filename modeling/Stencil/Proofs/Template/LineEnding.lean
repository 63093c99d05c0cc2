import Stencil.Proofs.Template.Rebreak
import Stencil.Template.Unit
import Mathlib.Data.List.Forall2
set_option autoImplicit false

/-!
# Parsing with another line break

A template says the same with any line break: its directives are read the same, its parts are on
the same lines, and their texts differ in their line breaks only.

## Main definitions

* `Stencil.Template.rebreakString` — a source with another line break.
* `Stencil.Template.SamePart`, `SameUnit` — two parts and two units that differ in line breaks
  only.
* `Stencil.Template.SameCause` — two errors of one kind, on one line, about one key.

## Main results

* `Stencil.Template.interior_rebreak`, `words_rebreak`, `classify_rebreak` — what a directive says.
* `Stencil.Template.parse_rebreak` — both sources are parsed to the same unit, or fail for the same
  cause.
-/

namespace Stencil.Template

open Stencil.Text

/-! ## Blanks -/

/-- A line break is blank. -/
theorem LineBreak.isBlank_text (b : LineBreak) : ∀ c ∈ b.text, isBlank c = true := by
  cases b <;> simp [LineBreak.text, isBlank]

/-- Leading blanks of a rewritten text. -/
theorem trimStart_rebreak (b : LineBreak) (s : List Char) :
    trimStart (rebreak b s) = rebreak b (trimStart s) := by
  induction s with
  | nil => rfl
  | cons c s ih =>
    unfold trimStart at ih ⊢
    by_cases hc : c = '\n'
    · subst hc
      have hlf : isBlank '\n' = true := by decide
      rw [rebreak_lf, List.dropWhile_append_of_pos b.isBlank_text, ih,
        List.dropWhile_cons_of_pos hlf]
    · rw [rebreak_cons b hc]
      by_cases hb : isBlank c = true
      · rw [List.dropWhile_cons_of_pos hb, List.dropWhile_cons_of_pos hb, ih]
      · rw [List.dropWhile_cons_of_neg hb, List.dropWhile_cons_of_neg hb, rebreak_cons b hc]

/-- A break read from behind. -/
def LineBreak.mirror : LineBreak → LineBreak
  | lf => .lf
  | cr => .cr
  | crlf => .lfcr
  | lfcr => .crlf

/-- A rewritten text from behind is rewritten with the break from behind. -/
theorem reverse_rebreak (b : LineBreak) (s : List Char) :
    (rebreak b s).reverse = rebreak b.mirror s.reverse := by
  induction s with
  | nil => rfl
  | cons c s ih =>
    rw [List.reverse_cons, rebreak_append, ← ih]
    by_cases hc : c = '\n'
    · subst hc
      rw [rebreak_lf, List.reverse_append, rebreak_lf]
      cases b <;> rfl
    · rw [rebreak_cons b hc, List.reverse_cons, rebreak_cons _ hc]
      rfl

/-- **Trimming** a rewritten text. -/
theorem trim_rebreak (b : LineBreak) (s : List Char) : trim (rebreak b s) = rebreak b (trim s) := by
  have hend : ∀ t : List Char, trimEnd (rebreak b t) = rebreak b (trimEnd t) := by
    intro t
    have hstart := trimStart_rebreak b.mirror t.reverse
    unfold trimStart at hstart
    unfold trimEnd
    rw [reverse_rebreak, hstart, reverse_rebreak]
    cases b <;> rfl
  unfold trim
  rw [trimStart_rebreak, hend]

/-! ## Words -/

/-- Blanks in front do not change the words of a text. -/
theorem words_append_of_isBlank {s : List Char} (h : ∀ c ∈ s, isBlank c = true) (t : List Char) :
    words (s ++ t) = words t := by
  induction s with
  | nil => rfl
  | cons c s ih =>
    have hc : isBlank c = true := h c (List.mem_cons_self ..)
    rw [List.cons_append, words, if_pos hc, ih fun d hd => h d (List.mem_cons_of_mem _ hd)]

/-- The words behind a character that is not blank, by the first character of the rest. -/
theorem words_cons_of_not_isBlank {c : Char} (hc : isBlank c = false) {s t : List Char}
    (hwords : words s = words t) (hhead : s.head?.map isBlank = t.head?.map isBlank) :
    words (c :: s) = words (c :: t) := by
  rw [words, words, if_neg (by simp [hc]), if_neg (by simp [hc])]
  cases s with
  | nil =>
    cases t with
    | nil => rfl
    | cons e t => simp at hhead
  | cons d s =>
    cases t with
    | nil => simp at hhead
    | cons e t =>
      have hde : isBlank d = isBlank e := by simpa using hhead
      simp only [List.head?_cons, hde, hwords]

/-- **The words** of a rewritten text are those of the text. -/
theorem words_rebreak (b : LineBreak) (s : List Char) : words (rebreak b s) = words s := by
  induction s with
  | nil => rfl
  | cons c s ih =>
    by_cases hc : c = '\n'
    · subst hc
      have hlf : isBlank '\n' = true := by decide
      rw [rebreak_lf, words_append_of_isBlank b.isBlank_text, ih, words, if_pos hlf]
    · rw [rebreak_cons b hc]
      by_cases hb : isBlank c = true
      · rw [words, words, if_pos hb, if_pos hb, ih]
      · refine words_cons_of_not_isBlank (Bool.eq_false_iff.mpr hb) ih ?_
        cases s with
        | nil => rfl
        | cons d s =>
          by_cases hd : d = '\n'
          · subst hd
            cases b <;> rfl
          · rw [rebreak_cons b hd]
            rfl

/-! ## Directives -/

/-- A text without break characters is at the end of both texts or of none. -/
theorem isSuffixOf_rebreak (b : LineBreak) {w : List Char} (hw : ∀ c ∈ w, isBreakChar c = false)
    (s : List Char) : w.isSuffixOf (rebreak b s) = w.isSuffixOf s := by
  unfold List.isSuffixOf
  rw [reverse_rebreak, isPrefixOf_rebreak]
  exact fun c hc => hw c (List.mem_reverse.mp hc)

/-- Dropping the closing marker of a rewritten text. -/
theorem dropEnd?_rebreak (b : LineBreak) {w : List Char} (hw : ∀ c ∈ w, isBreakChar c = false)
    (s : List Char) : dropEnd? w (rebreak b s) = (dropEnd? w s).map (rebreak b) := by
  unfold dropEnd?
  rw [isSuffixOf_rebreak b hw]
  split
  · rename_i h
    obtain ⟨t, rfl⟩ := List.isSuffixOf_iff_suffix.mp h
    have hself : rebreak b w = w := rebreak_eq_self b fun hn => by
      have := hw _ hn
      simp [isBreakChar] at this
    rw [rebreak_append, hself]
    simp
  · rfl

/-- **What a rewritten directive says** is what the directive says, rewritten. -/
theorem interior_rebreak (b : LineBreak) (t : List Char) :
    interior (rebreak b t) = rebreak b (interior t) := by
  have hstart : ∀ c ∈ directiveStart, isBreakChar c = false := by
    simp [directiveStart, isBreakChar]
  have hend : ∀ c ∈ blockEndText, isBreakChar c = false := by simp [blockEndText, isBreakChar]
  unfold interior
  rw [isPrefixOf_rebreak b hstart]
  split
  · rename_i h
    obtain ⟨r, rfl⟩ := List.isPrefixOf_iff_prefix.mp h
    have hself : rebreak b directiveStart = directiveStart := rebreak_eq_self b (by decide)
    dsimp only
    rw [rebreak_append, hself, List.drop_left, List.drop_left, dropEnd?_rebreak b hend,
      ← trim_rebreak]
    cases dropEnd? blockEndText r <;> rfl
  · rfl

/-- A word without breaks begins both texts in some letter case, or none. -/
theorem eqIgnoringCase_take_rebreak (b : LineBreak) {w : List Char}
    (hw : ∀ c ∈ w, ∀ d, isBreakChar d = true → d.toLower ≠ c.toLower) (s : List Char) :
    eqIgnoringCase ((rebreak b s).take w.length) w = eqIgnoringCase (s.take w.length) w := by
  induction w generalizing s with
  | nil => simp
  | cons c w ih =>
    have hc := hw c (List.mem_cons_self ..)
    have ih := ih fun d hd => hw d (List.mem_cons_of_mem _ hd)
    unfold eqIgnoringCase lowerAscii at ih ⊢
    cases s with
    | nil => rfl
    | cons d s =>
      by_cases hd : d = '\n'
      · subst hd
        obtain ⟨e, t, ht, he, -⟩ := b.exists_text_eq
        have hbreak : (e.toLower == c.toLower) = false := beq_eq_false_iff_ne.mpr (hc e he)
        have hlf : ('\n'.toLower == c.toLower) = false :=
          beq_eq_false_iff_ne.mpr (hc '\n' (by decide))
        rw [rebreak_lf, ht]
        simp only [List.cons_append, List.length_cons, List.take_succ_cons, List.map_cons,
          List.cons_beq_cons, hbreak, hlf, Bool.false_and]
      · rw [rebreak_cons b hd]
        simp only [List.length_cons, List.take_succ_cons, List.map_cons, List.cons_beq_cons, ih]

/-- **The kind of a rewritten directive** is that of the directive. -/
theorem classify_rebreak (b : LineBreak) (t : List Char) : classify (rebreak b t) = classify t := by
  have hstart : ∀ c ∈ directiveStart, isBreakChar c = false := by
    simp [directiveStart, isBreakChar]
  have hword : ∀ c ∈ includeWord, ∀ d, isBreakChar d = true → d.toLower ≠ c.toLower := by
    intro c hc d hd
    have hall : includeWord.all (fun c => '\n'.toLower != c.toLower && '\r'.toLower != c.toLower) =
        true := by decide
    have hne : '\n'.toLower ≠ c.toLower ∧ '\r'.toLower ≠ c.toLower := by
      simpa only [Bool.and_eq_true, bne_iff_ne] using List.all_eq_true.mp hall c hc
    rcases isBreakChar_iff.mp hd with rfl | rfl
    · exact hne.1
    · exact hne.2
  unfold classify
  rw [isPrefixOf_rebreak b hstart, interior_rebreak, eqIgnoringCase_take_rebreak b hword]

/-! ## Units -/

/-- **A source with another line break.** -/
def rebreakString (b : LineBreak) (s : String) : String := String.ofList (rebreak b s.toList)

@[simp] theorem toList_rebreakString (b : LineBreak) (s : String) :
    (rebreakString b s).toList = rebreak b s.toList := String.toList_ofList

/-- **Two parts that differ in line breaks only.** Their positions are not compared. -/
structure SamePart (b : LineBreak) (p q : Part) : Prop where
  text : q.text = rebreakString b p.text
  skippedBreak : q.skippedBreak = p.skippedBreak.map (rebreakString b)
  line : q.line = p.line

/-- **Two units that differ in line breaks only.** -/
structure SameUnit (b : LineBreak) (u v : CompilationUnit) : Prop where
  language : v.language = u.language
  imports : v.imports = u.imports
  references : v.references = u.references
  codeParts : v.codeParts = u.codeParts.map (rebreakString b)
  directives : v.directives = u.directives
  parts : List.Forall₂ (SamePart b) u.parts v.parts

/-- **Two errors of one kind,** on one line and about one key. -/
inductive SameCause (b : LineBreak) : SyntaxError → SyntaxError → Prop where
  | unterminatedBlock (position position' line : Nat) :
      SameCause b (.unterminatedBlock position line) (.unterminatedBlock position' line)
  | invalidDirective (directive : String) (position position' line : Nat) :
      SameCause b (.invalidDirective directive position line)
        (.invalidDirective (rebreakString b directive) position' line)
  | unknownDirective (key directive : String) (position position' line : Nat) :
      SameCause b (.unknownDirective key directive position line)
        (.unknownDirective key (rebreakString b directive) position' line)

/-- **The same outcome:** both results are units that differ in line breaks only, or both are
errors for the same cause. -/
inductive SameOutcome (b : LineBreak) :
    Except SyntaxError CompilationUnit → Except SyntaxError CompilationUnit → Prop where
  | ok {u v : CompilationUnit} (h : SameUnit b u v) : SameOutcome b (.ok u) (.ok v)
  | error {e e' : SyntaxError} (h : SameCause b e e') : SameOutcome b (.error e) (.error e')

/-- The key and the value of a rewritten part are those of the part. -/
theorem SamePart.ofPart {b : LineBreak} {p q : Part} (h : SamePart b p q) :
    (∃ d, Directive.ofPart p = .ok d ∧ Directive.ofPart q = .ok d) ∨
    ∃ e e', Directive.ofPart p = .error e ∧ Directive.ofPart q = .error e' ∧
      SameCause b e e' := by
  have hinterior : interior q.text.toList = rebreak b (interior p.text.toList) := by
    rw [h.text, toList_rebreakString, interior_rebreak]
  have hwords : words (interior q.text.toList) = words (interior p.text.toList) := by
    rw [hinterior, words_rebreak]
  have hsay : String.ofList (interior q.text.toList) =
      rebreakString b (String.ofList (interior p.text.toList)) := by
    rw [hinterior, rebreakString, String.toList_ofList]
  unfold Directive.ofPart
  dsimp only
  rw [hwords, hsay, h.line]
  split
  · exact .inl ⟨_, rfl, rfl⟩
  · exact .inr ⟨_, _, rfl, rfl, .invalidDirective ..⟩

/-- A setting changes both units alike. -/
theorem SameUnit.apply {b : LineBreak} {u v : CompilationUnit} (h : SameUnit b u v)
    (config : ParserConfig) (setting : Setting) :
    SameUnit b (u.apply config setting) (v.apply config setting) := by
  obtain ⟨hlanguage, himports, hreferences, hcode, hdirectives, hparts⟩ := h
  cases setting with
  | use name =>
    exact ⟨hlanguage, congrArg (·.insert name) himports, hreferences, hcode, hdirectives, hparts⟩
  | language name => exact ⟨rfl, himports, hreferences, hcode, hdirectives, hparts⟩
  | reference name =>
    exact ⟨hlanguage, himports,
      congrArg (·.insert (withLibrarySuffix name config.librarySuffix)) hreferences, hcode,
      hdirectives, hparts⟩

/-- **Adding a part** to both units gives the same outcome. -/
theorem addPart_rebreak {b : LineBreak} {u v : CompilationUnit} {p q : Part}
    (hunit : SameUnit b u v) (hpart : SamePart b p q) (config : ParserConfig) :
    SameOutcome b (u.addPart config p) (v.addPart config q) := by
  have hkind : q.kind = p.kind := by
    unfold Part.kind
    rw [hpart.text, toList_rebreakString, classify_rebreak]
  unfold CompilationUnit.addPart
  rw [hkind]
  by_cases hconf : p.kind = some .configuration
  · rw [if_pos hconf, if_pos hconf]
    rcases hpart.ofPart with ⟨d, hp, hq⟩ | ⟨e, e', hp, hq, hcause⟩
    · rw [hp, hq]
      dsimp only
      cases hset : d.setting with
      | none =>
        have hsay : String.ofList (interior q.text.toList) =
            rebreakString b (String.ofList (interior p.text.toList)) := by
          rw [hpart.text, toList_rebreakString, interior_rebreak, rebreakString,
            String.toList_ofList]
        dsimp only
        rw [hsay, hpart.line]
        exact .error (.unknownDirective ..)
      | some setting =>
        have happly := hunit.apply config setting
        refine .ok ⟨happly.language, happly.imports, happly.references, happly.codeParts, ?_, ?_⟩
        · exact congrArg (· ++ [d]) happly.directives
        · exact List.rel_append happly.parts (.cons hpart .nil)
    · rw [hp, hq]
      exact .error hcause
  · rw [if_neg hconf, if_neg hconf]
    refine .ok ⟨hunit.language, hunit.imports, hunit.references, ?_, hunit.directives, ?_⟩
    · show v.codeParts ++ [q.text] = (u.codeParts ++ [p.text]).map (rebreakString b)
      rw [hunit.codeParts, hpart.text, List.map_append, List.map_singleton]
    · exact List.rel_append hunit.parts (.cons hpart .nil)

/-- Adding all parts to both units gives the same outcome. -/
theorem foldlM_addPart_rebreak {b : LineBreak} {u v : CompilationUnit} {ps qs : List Part}
    (hunit : SameUnit b u v) (hparts : List.Forall₂ (SamePart b) ps qs) (config : ParserConfig) :
    SameOutcome b (ps.foldlM (CompilationUnit.addPart config) u)
      (qs.foldlM (CompilationUnit.addPart config) v) := by
  induction hparts generalizing u v with
  | nil => exact .ok hunit
  | @cons p q ps qs hpart _ ih =>
    rw [List.foldlM_cons, List.foldlM_cons]
    have hadd := addPart_rebreak hunit hpart config
    generalize u.addPart config p = x, v.addPart config q = y at hadd
    cases hadd with
    | ok hunit' => exact ih hunit'
    | error hcause => exact .error hcause

/-! ## Sources -/

/-- **The parts of rewritten segments** are on the lines of the segments. -/
theorem assemble_rebreak (b : LineBreak) {gs : List Segment} (h : '\r' ∉ rawText gs)
    {position : Nat} (position' : Nat) {line : Nat} {ps : List Part}
    (hps : assemble position line gs none = .ok ps) :
    ∃ qs, assemble position' line (gs.map (Segment.rebreak b)) none = .ok qs ∧
      List.Forall₂ (SamePart b) ps qs := by
  induction gs generalizing position position' line ps with
  | nil =>
    obtain rfl : [] = ps := Except.ok.inj hps
    exact ⟨[], rfl, .nil⟩
  | cons g gs ih =>
    obtain ⟨hg, hgs⟩ : '\r' ∉ g.raw ∧ '\r' ∉ rawText gs := by simpa using h
    rw [assemble] at hps
    cases hrest : assemble (position + utf8Length g.raw) (line + lineBreaks g.raw) gs none with
    | error e =>
      rw [hrest] at hps
      cases hps
    | ok ps' =>
      rw [hrest] at hps
      obtain rfl : g.at position line :: ps' = ps := Except.ok.inj hps
      obtain ⟨qs, hqs, hsame⟩ := ih hgs (position' + utf8Length (g.rebreak b).raw) hrest
      refine ⟨(g.rebreak b).at position' line :: qs, ?_, .cons ⟨?_, ?_, rfl⟩ hsame⟩
      · rw [List.map_cons, assemble, Segment.raw_rebreak, lineBreaks_rebreak b hg,
          ← Segment.raw_rebreak, hqs]
        rfl
      · simp [Segment.at, Segment.rebreak, rebreakString]
      · obtain ⟨text, dropped⟩ := g
        cases dropped <;> simp [Segment.at, Segment.rebreak, rebreakString]

/-- **Parsing does not depend on the line break.** A source without carriage returns and the source
with another break for each line feed are parsed to units that differ in line breaks only, or fail
for the same cause.

**Proof sketch.** The segments of the source, rewritten, are canonical and make up the rewritten
source; so the parts correspond one to one, on the same lines. The directives among them have the
same kinds and the same words, and so each part is added with the same outcome. If a block is left
open, it is so in both sources, behind as many lines. -/
theorem parse_rebreak (config : ParserConfig) (b : LineBreak) (source : String)
    (h : '\r' ∉ source.toList) :
    SameOutcome b (parse config source) (parse config (rebreakString b source)) := by
  obtain ⟨gs, hc, hsource | hopen⟩ := exists_canonical source.toList
  · rw [hsource] at h
    have hcb := canonical_rebreak b hc h
    have hsourceb : (rebreakString b source).toList = rawText (gs.map (Segment.rebreak b)) := by
      rw [toList_rebreakString, hsource, rawText_rebreak]
    obtain ⟨ps, hps, -, -⟩ := assemble_none hc 0 1
    obtain ⟨qs, hqs, hsame⟩ := assemble_rebreak b h 0 hps
    unfold parse
    rw [split_eq_assemble, split_eq_assemble, hsource, hsourceb, cut_rawText hc, cut_rawText hcb,
      hps, hqs]
    exact foldlM_addPart_rebreak ⟨rfl, rfl, rfl, rfl, rfl, .nil⟩ hsame config
  · have hraw : '\r' ∉ rawText gs := by
      obtain ⟨rest, hrest, -⟩ := hopen
      rw [hrest] at h
      exact fun hr => h (List.mem_append_left _ hr)
    have hopenb : LeftOpen (gs.map (Segment.rebreak b)) (rebreakString b source).toList := by
      rw [toList_rebreakString]
      exact hopen.rebreak b
    unfold parse
    rw [split_of_leftOpen hc hopen, split_of_leftOpen (canonical_rebreak b hc hraw) hopenb,
      rawText_rebreak, lineBreaks_rebreak b hraw]
    exact .error (.unterminatedBlock ..)

/-- A template of two lines, with the line ends of another system. -/
theorem parse_rebreak_two_lines :
    SameOutcome .crlf (parse {} "<%@ use json %>\nHi\n")
      (parse {} (rebreakString .crlf "<%@ use json %>\nHi\n")) :=
  parse_rebreak {} .crlf "<%@ use json %>\nHi\n" (by decide)

end Stencil.Template
