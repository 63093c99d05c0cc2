import Stencil.Proofs.Template.Grammar
set_option autoImplicit false

/-!
# Another line break

What becomes of a source when its line feeds are written as another line break. Markers stay where
they are, since no marker holds a break character, and each break stays one break; so the segments
of the source are rewritten one by one.

## Main definitions

* `Stencil.Template.rebreak` — a text with another line break.
* `Stencil.Template.Segment.rebreak` — a segment with another line break.

## Main results

* `Stencil.Template.isPrefix_rebreak` — what a text without breaks is the front of.
* `Stencil.Template.firstAt_rebreak` — the first occurrence of a marker is at the same place.
* `Stencil.Template.lineBreaks_rebreak` — the number of lines stays.
* `Stencil.Template.canonical_rebreak` — canonical lists stay canonical.
-/

namespace Stencil.Template

open Stencil.Text

/-! ## Texts with another line break -/

/-- **A text with another line break** for each line feed. -/
def rebreak (b : LineBreak) (s : List Char) : List Char :=
  s.flatMap fun c => if c = '\n' then b.text else [c]

@[simp] theorem rebreak_nil (b : LineBreak) : rebreak b [] = [] := rfl

@[simp] theorem rebreak_lf (b : LineBreak) (s : List Char) :
    rebreak b ('\n' :: s) = b.text ++ rebreak b s := by
  simp [rebreak]

theorem rebreak_cons (b : LineBreak) {c : Char} (h : c ≠ '\n') (s : List Char) :
    rebreak b (c :: s) = c :: rebreak b s := by
  simp [rebreak, h]

@[simp] theorem rebreak_append (b : LineBreak) (s t : List Char) :
    rebreak b (s ++ t) = rebreak b s ++ rebreak b t := List.flatMap_append

/-- A text without line feeds stays. -/
theorem rebreak_eq_self (b : LineBreak) {s : List Char} (h : '\n' ∉ s) : rebreak b s = s := by
  induction s with
  | nil => rfl
  | cons c s ih =>
    obtain ⟨hc, hs⟩ : ¬ '\n' = c ∧ '\n' ∉ s := by simpa using h
    rw [rebreak_cons b (fun e => hc e.symm), ih hs]

/-- A marker stays. -/
@[simp] theorem rebreak_marker (b : LineBreak) (m : Mode) : rebreak b m.marker = m.marker := by
  cases m <;> rfl

/-- Each line break begins with a break character. -/
theorem LineBreak.exists_text_eq (b : LineBreak) :
    ∃ c t, b.text = c :: t ∧ isBreakChar c = true ∧ ∀ d ∈ t, isBreakChar d = true := by
  cases b <;> exact ⟨_, _, rfl, rfl, by simp [isBreakChar]⟩

/-- Only the empty text becomes empty. -/
theorem rebreak_eq_nil_iff (b : LineBreak) (s : List Char) : rebreak b s = [] ↔ s = [] := by
  cases s with
  | nil => simp
  | cons c s =>
    by_cases hc : c = '\n'
    · subst hc
      obtain ⟨d, t, ht, -⟩ := b.exists_text_eq
      simp [ht]
    · simp [rebreak_cons b hc]

/-! ## Texts without breaks -/

/-- A text without break characters is in front of a text as it is in front of the rewritten one. -/
theorem isPrefix_rebreak (b : LineBreak) {w : List Char} (hw : ∀ c ∈ w, isBreakChar c = false)
    (s : List Char) : w <+: rebreak b s ↔ w <+: s := by
  induction w generalizing s with
  | nil => simp
  | cons c w ih =>
    have hc : isBreakChar c = false := hw c (List.mem_cons_self ..)
    have ih := ih fun d hd => hw d (List.mem_cons_of_mem _ hd)
    cases s with
    | nil => simp
    | cons d s =>
      by_cases hd : d = '\n'
      · subst hd
        obtain ⟨e, t, ht, he, -⟩ := b.exists_text_eq
        have hce : c ≠ e := by
          rintro rfl
          rw [hc] at he
          cases he
        have hcn : c ≠ '\n' := (isBreakChar_eq_false_iff.mp hc).1
        rw [rebreak_lf, ht, List.cons_append, List.cons_prefix_cons, List.cons_prefix_cons]
        simp [hce, hcn]
      · rw [rebreak_cons b hd, List.cons_prefix_cons, List.cons_prefix_cons, ih]

/-- A text without break characters is in front of both texts or of none. -/
theorem isPrefixOf_rebreak (b : LineBreak) {w : List Char} (hw : ∀ c ∈ w, isBreakChar c = false)
    (s : List Char) : w.isPrefixOf (rebreak b s) = w.isPrefixOf s := by
  rw [Bool.eq_iff_iff, List.isPrefixOf_iff_prefix, List.isPrefixOf_iff_prefix,
    isPrefix_rebreak b hw]

/-- Where a text without break characters begins in a rewritten text, it begins in the text. -/
theorem exists_of_isPrefix_rebreak (b : LineBreak) {w : List Char} (hne : w ≠ [])
    (hw : ∀ c ∈ w, isBreakChar c = false) {u s : List Char} (h : u ++ w <+: rebreak b s) :
    ∃ v, u = rebreak b v ∧ v ++ w <+: s := by
  induction s generalizing u with
  | nil =>
    have hu : u ++ w = [] := by simpa using h
    simp [hne] at hu
  | cons c s ih =>
    by_cases hc : c = '\n'
    · subst hc
      -- The occurrence is behind the whole break, for `w` begins with no break character.
      obtain ⟨u', rfl⟩ : ∃ u', u = b.text ++ u' := by
        rw [rebreak_lf] at h
        obtain ⟨d, w, rfl⟩ := List.exists_cons_of_ne_nil hne
        have hd := isBreakChar_eq_false_iff.mp (hw d (List.mem_cons_self ..))
        match u with
        | [] => cases b <;> simp_all [LineBreak.text]
        | [x] => cases b <;> simp_all [LineBreak.text]
        | x :: y :: u => cases b <;> simp_all [LineBreak.text]
      rw [rebreak_lf, List.append_assoc, List.prefix_append_right_inj] at h
      obtain ⟨v, rfl, hv⟩ := ih h
      exact ⟨'\n' :: v, by simp, by simpa using hv⟩
    · rw [rebreak_cons b hc] at h
      cases u with
      | nil =>
        rw [← rebreak_cons b hc] at h
        exact ⟨[], rfl, (isPrefix_rebreak b hw _).mp h⟩
      | cons d u =>
        obtain ⟨rfl, htail⟩ := List.cons_prefix_cons.mp h
        obtain ⟨v, rfl, hv⟩ := ih htail
        exact ⟨d :: v, by rw [rebreak_cons b hc], List.cons_prefix_cons.mpr ⟨rfl, hv⟩⟩

/-- The characters of a marker break no line. -/
theorem isBreakChar_of_mem_marker {m : Mode} : ∀ c ∈ m.marker, isBreakChar c = false := by
  cases m <;> simp [Mode.marker, isBreakChar]

/-- A marker is in a rewritten text just if it is in the text. -/
theorem isInfix_rebreak (b : LineBreak) (m : Mode) (s : List Char) :
    m.marker <:+: rebreak b s ↔ m.marker <:+: s := by
  constructor
  · rintro ⟨u, v, h⟩
    have hne : m.marker ≠ [] := by cases m <;> simp [Mode.marker]
    obtain ⟨v, -, hv⟩ := exists_of_isPrefix_rebreak b hne isBreakChar_of_mem_marker ⟨v, h⟩
    exact (List.suffix_append v _).isInfix.trans hv.isInfix
  · rintro ⟨u, v, rfl⟩
    exact ⟨rebreak b u, rebreak b v, by simp⟩

/-- **The first occurrence of a marker** is behind the rewritten text in front of it. -/
theorem firstAt_rebreak (b : LineBreak) {m : Mode} {u s : List Char} (h : FirstAt m.marker u s) :
    FirstAt m.marker (rebreak b u) (rebreak b s) := by
  obtain ⟨hpre, hfirst⟩ := h
  constructor
  · obtain ⟨r, rfl⟩ := hpre
    exact ⟨rebreak b r, by simp⟩
  · intro v hv
    have hne : m.marker ≠ [] := by cases m <;> simp [Mode.marker]
    obtain ⟨v, rfl, hv'⟩ := exists_of_isPrefix_rebreak b hne isBreakChar_of_mem_marker hv
    obtain ⟨w, rfl⟩ : u <+: v := List.prefix_of_prefix_length_le
      ((List.prefix_append u _).trans hpre) ((List.prefix_append v _).trans hv') (hfirst v hv')
    rw [rebreak_append, List.length_append]
    exact Nat.le_add_right ..

/-! ## Breaks -/

/-- The break in front of a rewritten text is the whole one. -/
theorem breakAt_text_rebreak (b : LineBreak) {s : List Char} (h : '\r' ∉ s) :
    breakAt (b.text ++ rebreak b s) = some b := by
  cases s with
  | nil => cases b <;> rfl
  | cons c s =>
    have hr : c ≠ '\r' := by
      rintro rfl
      simp at h
    by_cases hc : c = '\n'
    · subst hc
      cases b <;> rfl
    · rw [rebreak_cons b hc]
      cases b <;> simp [LineBreak.text, breakAt_lf, breakAt_cr, hc, hr]

/-- Without carriage returns a line feed is a break of its own. -/
theorem breakAt_lf_of_not_mem {s : List Char} (h : '\r' ∉ s) : breakAt ('\n' :: s) = some .lf := by
  cases s with
  | nil => rfl
  | cons c s =>
    have hc : c ≠ '\r' := by
      rintro rfl
      simp at h
    rw [breakAt_lf, if_neg hc]

/-- **The break at the front** of a rewritten text is the rewritten break. -/
theorem breakAt_rebreak (b : LineBreak) {s : List Char} (h : '\r' ∉ s) :
    (breakAt (rebreak b s)).map LineBreak.text =
      ((breakAt s).map LineBreak.text).map (rebreak b) := by
  cases s with
  | nil => rfl
  | cons c s =>
    obtain ⟨hr, hs⟩ : ¬ '\r' = c ∧ '\r' ∉ s := by simpa using h
    by_cases hc : c = '\n'
    · subst hc
      rw [rebreak_lf, breakAt_text_rebreak b hs, breakAt_lf_of_not_mem hs]
      simp [LineBreak.text]
    · have hb : isBreakChar c = false :=
        isBreakChar_eq_false_iff.mpr ⟨hc, fun e => hr e.symm⟩
      rw [rebreak_cons b hc, breakAt_cons_eq_none hb, breakAt_cons_eq_none hb]
      rfl

/-- **The number of lines stays.** -/
theorem lineBreaks_rebreak (b : LineBreak) {s : List Char} (h : '\r' ∉ s) :
    lineBreaks (rebreak b s) = lineBreaks s := by
  induction s with
  | nil => rfl
  | cons c s ih =>
    obtain ⟨hr, hs⟩ : ¬ '\r' = c ∧ '\r' ∉ s := by simpa using h
    have ih := ih hs
    by_cases hc : c = '\n'
    · subst hc
      have hlf : lineBreaks ('\n' :: s) = 1 + lineBreaks s :=
        lineBreaks_of_breakAt (show breakAt (LineBreak.lf.text ++ s) = _ from
          breakAt_lf_of_not_mem hs)
      rw [rebreak_lf, lineBreaks_of_breakAt (breakAt_text_rebreak b hs), hlf, ih]
    · have hpair : ∀ d, arePair c d = false := by
        intro d
        have hr : c ≠ '\r' := fun e => hr e.symm
        simp [arePair, hc, hr]
      rw [rebreak_cons b hc, lineBreaks_cons fun d _ => hpair d, lineBreaks_cons fun d _ => hpair d,
        ih]

/-! ## Segments -/

/-- **A segment with another line break.** -/
def Segment.rebreak (b : LineBreak) (g : Segment) : Segment where
  text := Template.rebreak b g.text
  dropped := g.dropped.map (Template.rebreak b)

/-- The source of a rewritten segment. -/
@[simp] theorem Segment.raw_rebreak (b : LineBreak) (g : Segment) :
    (g.rebreak b).raw = Template.rebreak b g.raw := by
  obtain ⟨text, dropped⟩ := g
  cases dropped <;> simp [Segment.rebreak, Segment.raw]

/-- The source of rewritten segments. -/
@[simp] theorem rawText_rebreak (b : LineBreak) (gs : List Segment) :
    rawText (gs.map (Segment.rebreak b)) = rebreak b (rawText gs) := by
  induction gs with
  | nil => rfl
  | cons g gs ih => simp [ih]

/-- A literal stays a literal. -/
theorem isLiteral_rebreak (b : LineBreak) (t : List Char) :
    IsLiteral (rebreak b t) ↔ IsLiteral t := by
  unfold IsLiteral
  rw [isInfix_rebreak, Ne, rebreak_eq_nil_iff]

/-- The text of a rewritten block. -/
theorem rebreak_blockText (b : LineBreak) (body : List Char) :
    rebreak b (blockText body) = blockText (rebreak b body) := by
  simp [blockText]

/-- A block stays a block. -/
theorem IsBlock.rebreak {t : List Char} (h : IsBlock t) (b : LineBreak) :
    IsBlock (rebreak b t) := by
  obtain ⟨body, rfl, hfirst⟩ := h
  have hfirst := firstAt_rebreak b hfirst
  rw [rebreak_append, rebreak_marker] at hfirst
  exact ⟨Template.rebreak b body, rebreak_blockText b body, hfirst⟩

/-- The break that is to be dropped is the rewritten one. -/
theorem expectedBreak_rebreak (b : LineBreak) (t : List Char) {follow : List Char}
    (h : '\r' ∉ follow) :
    expectedBreak (rebreak b t) (rebreak b follow) = (expectedBreak t follow).map (rebreak b) := by
  have hvalue : ∀ c ∈ ['<', '%', '='], isBreakChar c = false := by simp [isBreakChar]
  unfold expectedBreak
  rw [isPrefixOf_rebreak b isBreakChar_of_mem_marker, isPrefixOf_rebreak b hvalue,
    breakAt_rebreak b h]
  split <;> rfl

/-- **Canonical lists stay canonical.** -/
theorem canonical_rebreak (b : LineBreak) {gs : List Segment} (hc : Canonical gs)
    (h : '\r' ∉ rawText gs) : Canonical (gs.map (Segment.rebreak b)) := by
  induction gs with
  | nil => exact canonical_nil
  | cons g gs ih =>
    obtain ⟨hkind, hapart, hbreak, hc⟩ := canonical_cons.mp hc
    have hfollow : '\r' ∉ g.dropped.getD [] ++ rawText gs := by
      intro hr
      refine h ?_
      rw [rawText_cons, Segment.raw, List.append_assoc]
      exact List.mem_append_right _ hr
    refine canonical_cons.mpr ⟨?_, ?_, ?_, ih hc fun hr => hfollow (List.mem_append_right _ hr)⟩
    · rcases hkind with hlit | hblock
      · exact .inl ((isLiteral_rebreak b _).mpr hlit)
      · exact .inr (hblock.rebreak b)
    · intro hlit i hi
      cases gs with
      | nil => simp at hi
      | cons j gs =>
        obtain rfl : j.rebreak b = i := by simpa using hi
        have hne := hapart ((isLiteral_rebreak b _).mp hlit) j rfl
        exact fun hlit' => hne ((isLiteral_rebreak b _).mp hlit')
    · have hraw : ((g.rebreak b).dropped.getD [] ++ rawText (gs.map (Segment.rebreak b))) =
          Template.rebreak b (g.dropped.getD [] ++ rawText gs) := by
        rw [rawText_rebreak, rebreak_append]
        cases hd : g.dropped <;> simp [Segment.rebreak, hd]
      have hdrop : (g.rebreak b).dropped = g.dropped.map (Template.rebreak b) := rfl
      have htext : (g.rebreak b).text = Template.rebreak b g.text := rfl
      rw [hraw, htext, expectedBreak_rebreak b g.text hfollow, ← hbreak, hdrop]

/-- A block that is left open stays so. -/
theorem LeftOpen.rebreak {gs : List Segment} {s : List Char} (h : LeftOpen gs s)
    (b : LineBreak) : LeftOpen (gs.map (Segment.rebreak b)) (rebreak b s) := by
  obtain ⟨rest, rfl, hrest⟩ := h
  exact ⟨Template.rebreak b rest, by simp,
    fun hin => hrest ((isInfix_rebreak b .inside rest).mp hin)⟩

end Stencil.Template
