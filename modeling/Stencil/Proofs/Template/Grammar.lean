import Stencil.Proofs.Template.Segment
set_option autoImplicit false

/-!
# The grammar of templates

Which lists of segments a source can be cut into, said of the segments alone, and that a source is
cut into the only such list that makes it up. The places of the parts count the raw text in front
of them.

## Main definitions

* `Stencil.Template.IsLiteral`, `IsBlock` — the two kinds of segments.
* `Stencil.Template.Canonical` — the lists of segments that the grammar allows.

## Main results

* `Stencil.Template.canonical_cut`, `cut_rawText_append` — a source is cut into the one canonical
  list that makes it up.
* `Stencil.Template.lineBreaks_rawText_cons` — no line break is cut by a segment.
* `Stencil.Template.split_eq_ok_iff` — the parts of a source, exactly, with their places.
-/

namespace Stencil.Template

open Stencil.Text

/-! ## Canonical segments -/

/-- **The text of a literal:** some text in which no block begins. -/
def IsLiteral (t : List Char) : Prop := t ≠ [] ∧ ¬ Mode.outside.marker <:+: t

/-- **The text of a block:** its closing marker is the first behind its opening marker. -/
def IsBlock (t : List Char) : Prop :=
  ∃ body, t = blockText body ∧ FirstAt Mode.inside.marker body (body ++ Mode.inside.marker)

/-- The line break that is to be dropped between a text and what follows it: the longest that is
there, if the text is a block that writes no value. -/
def expectedBreak (t follow : List Char) : Option (List Char) :=
  if Mode.outside.marker.isPrefixOf t && !(['<', '%', '='].isPrefixOf t) then
    (breakAt follow).map LineBreak.text
  else none

/-- **The lists of segments that the grammar allows.** -/
structure Canonical (gs : List Segment) : Prop where
  kinds : ∀ g ∈ gs, IsLiteral g.text ∨ IsBlock g.text
  apart : ∀ before g h after, gs = before ++ g :: h :: after →
    ¬ (IsLiteral g.text ∧ IsLiteral h.text)
  breaks : ∀ before g after, gs = before ++ g :: after →
    g.dropped = expectedBreak g.text (g.dropped.getD [] ++ rawText after)

/-- A block is no literal. -/
theorem IsBlock.not_isLiteral {t : List Char} (h : IsBlock t) : ¬ IsLiteral t := by
  obtain ⟨body, rfl, -⟩ := h
  intro hlit
  exact hlit.2 ⟨[], body ++ Mode.inside.marker, by simp [blockText]⟩

/-- Behind a literal nothing is dropped. -/
theorem IsLiteral.expectedBreak_eq {t : List Char} (h : IsLiteral t) (follow : List Char) :
    expectedBreak t follow = none := by
  have hpre : Mode.outside.marker.isPrefixOf t = false := by
    refine Bool.eq_false_iff.mpr fun hp => h.2 ?_
    exact (List.isPrefixOf_iff_prefix.mp hp).isInfix
  simp [expectedBreak, hpre]

/-- Behind a block the break is dropped that the inside tells. -/
theorem expectedBreak_blockText (body follow : List Char) :
    expectedBreak (blockText body) follow = (droppedBehind body follow).map LineBreak.text := by
  have hvalue : ['<', '%', '='].isPrefixOf (blockText body) = (body.head? == some '=') := by
    cases body with
    | nil => rfl
    | cons c body =>
      simp [blockText, Mode.marker, List.isPrefixOf, BEq.comm (a := c)]
  have hopen : Mode.outside.marker.isPrefixOf (blockText body) = true := by
    simp [blockText, Mode.marker, List.isPrefixOf]
  unfold expectedBreak droppedBehind
  rw [hvalue, hopen]
  by_cases h : body.head? = some '='
  · simp [h]
  · simp [h]

/-- Nothing is a canonical list. -/
theorem canonical_nil : Canonical [] where
  kinds := by simp
  apart := by simp
  breaks := by simp

/-- **A canonical list by its first segment.** -/
theorem canonical_cons {g : Segment} {gs : List Segment} :
    Canonical (g :: gs) ↔
      (IsLiteral g.text ∨ IsBlock g.text) ∧
      (IsLiteral g.text → ∀ h ∈ gs.head?, ¬ IsLiteral h.text) ∧
      g.dropped = expectedBreak g.text (g.dropped.getD [] ++ rawText gs) ∧ Canonical gs := by
  constructor
  · intro hc
    refine ⟨hc.kinds g (List.mem_cons_self ..), ?_, hc.breaks [] g gs rfl, ?_⟩
    · intro hlit h hh
      obtain ⟨after, rfl⟩ := List.head?_eq_some_iff.mp hh
      exact fun hlit' => hc.apart [] g h after rfl ⟨hlit, hlit'⟩
    · constructor
      · exact fun h hh => hc.kinds h (List.mem_cons_of_mem _ hh)
      · rintro before h i after rfl
        exact hc.apart (g :: before) h i after rfl
      · rintro before h after rfl
        exact hc.breaks (g :: before) h after rfl
  · rintro ⟨hkind, hapart, hbreak, hc⟩
    constructor
    · intro h hh
      rcases List.mem_cons.mp hh with rfl | hh
      · exact hkind
      · exact hc.kinds h hh
    · rintro before h i after heq
      cases before with
      | nil =>
        obtain ⟨rfl, rfl⟩ : g = h ∧ gs = i :: after := by simpa using heq
        exact fun hlit => hapart hlit.1 i rfl hlit.2
      | cons b before =>
        obtain ⟨-, rfl⟩ : g = b ∧ gs = before ++ h :: i :: after := by simpa using heq
        exact hc.apart before h i after rfl
    · rintro before h after heq
      cases before with
      | nil =>
        obtain ⟨rfl, rfl⟩ : g = h ∧ gs = after := by simpa using heq
        exact hbreak
      | cons b before =>
        obtain ⟨-, rfl⟩ : g = b ∧ gs = before ++ h :: after := by simpa using heq
        exact hc.breaks before h after rfl

/-- Each segment of a canonical list has its break. -/
theorem Canonical.raw_cons {g : Segment} {gs : List Segment} (hc : Canonical (g :: gs)) :
    (IsLiteral g.text ∧ g.dropped = none ∧ ∀ h ∈ gs.head?, IsBlock h.text) ∨
    ∃ body, FirstAt Mode.inside.marker body (body ++ Mode.inside.marker) ∧
      ∃ b : Option LineBreak, g = ⟨blockText body, b.map LineBreak.text⟩ ∧
        b = droppedBehind body ((b.map LineBreak.text).getD [] ++ rawText gs) := by
  obtain ⟨hkind, hapart, hbreak, hc⟩ := canonical_cons.mp hc
  rcases hkind with hlit | ⟨body, hbody, hfirst⟩
  · refine .inl ⟨hlit, by rw [hbreak, hlit.expectedBreak_eq], fun h hh => ?_⟩
    obtain ⟨after, rfl⟩ := List.head?_eq_some_iff.mp hh
    exact (hc.kinds h (List.mem_cons_self ..)).resolve_left (hapart hlit h rfl)
  · obtain ⟨text, dropped⟩ := g
    obtain rfl : text = blockText body := hbody
    dsimp only at hbreak
    rw [expectedBreak_blockText] at hbreak
    refine .inr ⟨body, hfirst, droppedBehind body (dropped.getD [] ++ rawText gs), ?_, ?_⟩
    · rw [← hbreak]
    · rw [← hbreak]

/-! ## Cutting known segments -/

/-- Behind a text in which no marker begins, a marker is the first. -/
theorem firstAt_of_not_infix {m : Mode} {t : List Char} (h : ¬ m.marker <:+: t)
    (r : List Char) : FirstAt m.marker t (t ++ (m.marker ++ r)) := by
  refine ⟨⟨r, by simp⟩, fun u hu => Nat.le_of_not_lt fun hlt => ?_⟩
  obtain ⟨v, rfl⟩ : u <+: t := List.prefix_of_prefix_length_le
    ((List.prefix_append u m.marker).trans hu) (List.prefix_append t _) (Nat.le_of_lt hlt)
  rw [List.append_assoc, List.prefix_append_right_inj] at hu
  match v with
  | [] => simp at hlt
  | [c] => cases m <;> simp [Mode.marker] at hu
  | c :: d :: v =>
    have hm : m.marker <+: c :: d :: v := by cases m <;> simpa [Mode.marker] using hu
    exact h (hm.isInfix.trans (List.suffix_append u _).isInfix)

/-- The first occurrence in a text does not depend on what follows it. -/
theorem firstAt_append {pattern u : List Char} (t : List Char) :
    FirstAt pattern u (u ++ pattern ++ t) ↔ FirstAt pattern u (u ++ pattern) := by
  constructor
  · intro h
    exact ⟨List.prefix_refl _, fun v hv => h.2 v (hv.trans (List.prefix_append _ t))⟩
  · intro h
    refine ⟨List.prefix_append _ t, fun v hv => Nat.le_of_not_lt fun hlt => ?_⟩
    have hshort : v ++ pattern <+: u ++ pattern := by
      refine List.prefix_of_prefix_length_le hv (List.prefix_append _ t) ?_
      rw [List.length_append, List.length_append]
      omega
    exact absurd (h.2 v hshort) (Nat.not_le_of_lt hlt)

/-- The empty source has no segments. -/
theorem cut_nil : cut [] = ([], none) := by
  rw [cut]
  split <;> simp_all [findText, Mode.marker]

/-- A source that is a literal. -/
theorem cut_literal {t : List Char} (ht : IsLiteral t) : cut t = ([⟨t, none⟩], none) := by
  have h := findText_eq_none_iff.mpr ht.2
  rw [cut]
  split <;> simp_all [ht.1]

/-- A source that begins with a literal. -/
theorem cut_literal_append {t : List Char} (ht : IsLiteral t) (r : List Char) :
    cut (t ++ (Mode.outside.marker ++ r)) =
      (⟨t, none⟩ :: (cut (Mode.outside.marker ++ r)).1, (cut (Mode.outside.marker ++ r)).2) := by
  have h : findText Mode.outside.marker (t ++ (Mode.outside.marker ++ r)) = some (t, r) :=
    findText_eq_some_iff.mpr ⟨by simp, firstAt_of_not_infix ht.2 r⟩
  obtain ⟨c, t, rfl⟩ := List.exists_cons_of_ne_nil ht.1
  rw [cut]
  split <;> simp_all

/-- An opening marker is found at the front. -/
theorem findText_marker (r : List Char) :
    findText Mode.outside.marker (Mode.outside.marker ++ r) = some ([], r) :=
  findText_eq_some_iff.mpr ⟨rfl, firstAt_nil (List.prefix_append _ r)⟩

/-- A source that begins with a block that is never closed. -/
theorem cut_open {r : List Char} (hr : ¬ Mode.inside.marker <:+: r) :
    cut (Mode.outside.marker ++ r) = ([], some r) := by
  have h := findText_marker r
  have h' := findText_eq_none_iff.mpr hr
  rw [cut]
  split
  · simp_all
  · simp_all
  · split <;> simp_all

/-- A source that begins with a block. -/
theorem cut_block {body : List Char}
    (hbody : FirstAt Mode.inside.marker body (body ++ Mode.inside.marker)) (after : List Char) :
    let b := droppedBehind body after
    cut (blockText body ++ after) =
      (⟨blockText body, b.map LineBreak.text⟩ :: (cut (behindBreak b after)).1,
        (cut (behindBreak b after)).2) := by
  intro b
  have h := findText_marker (body ++ Mode.inside.marker ++ after)
  have h' : findText Mode.inside.marker (body ++ Mode.inside.marker ++ after) =
      some (body, after) :=
    findText_eq_some_iff.mpr ⟨rfl, (firstAt_append after).mpr hbody⟩
  have hs : blockText body ++ after =
      Mode.outside.marker ++ (body ++ Mode.inside.marker ++ after) := by
    simp [blockText]
  rw [hs, cut]
  split
  · simp_all
  · simp_all
  · rename_i rest hf
    obtain rfl : body ++ Mode.inside.marker ++ after = rest := by
      rw [h] at hf
      simpa using hf
    split
    · simp_all
    · rename_i body' after' hf'
      obtain ⟨rfl, rfl⟩ : body = body' ∧ after = after' := by
        rw [h'] at hf'
        simpa using hf'
      rfl

/-- Behind an opening marker no literal is the first segment. -/
theorem isBlock_head?_cut (r : List Char) :
    ∀ g ∈ (cut (Mode.outside.marker ++ r)).1.head?, IsBlock g.text := by
  by_cases hr : Mode.inside.marker <:+: r
  · obtain ⟨⟨body, after⟩, hf⟩ := Option.ne_none_iff_exists'.mp
      (fun hf => findText_eq_none_iff.mp hf hr)
    obtain ⟨rfl, hfirst⟩ := findText_eq_some_iff.mp hf
    have hbody := (firstAt_append after).mp hfirst
    have hs : Mode.outside.marker ++ (body ++ Mode.inside.marker ++ after) =
        blockText body ++ after := by
      simp [blockText]
    rw [hs, cut_block hbody]
    simpa using ⟨body, rfl, hbody⟩
  · rw [cut_open hr]
    simp

/-! ## A source and its segments -/

/-- **What cutting leaves:** nothing, or the open block with which the source ends. -/
def Remains (tail : List Char) : Option (List Char) → Prop
  | none => tail = []
  | some r => tail = Mode.outside.marker ++ r ∧ ¬ Mode.inside.marker <:+: r

/-- What is left begins with no break character. -/
theorem Remains.head? {tail : List Char} {left : Option (List Char)} (h : Remains tail left) :
    ∀ c ∈ tail.head?, isBreakChar c = false := by
  cases left with
  | none => simp [show tail = [] from h]
  | some r =>
    obtain ⟨rfl, -⟩ := h
    exact head?_marker .outside r

/-- What begins with no break character does not change the break in front of it. -/
theorem breakAt_append {s tail : List Char} (h : ∀ c ∈ tail.head?, isBreakChar c = false) :
    breakAt (s ++ tail) = breakAt s := by
  match s with
  | [] =>
    cases tail with
    | nil => rfl
    | cons c tail => exact breakAt_cons_eq_none (h c rfl)
  | [c] =>
    cases tail with
    | nil => rfl
    | cons d tail =>
      have hd : isBreakChar d = false := h d rfl
      rw [isBreakChar_eq_false_iff] at hd
      cases hc : isBreakChar c with
      | false => rw [List.singleton_append, breakAt_cons_eq_none hc, breakAt_cons_eq_none hc]
      | true =>
        rcases isBreakChar_iff.mp hc with rfl | rfl
        · rw [List.singleton_append, breakAt_lf, if_neg hd.2]
          rfl
        · rw [List.singleton_append, breakAt_cr, if_neg hd.1]
          rfl
  | c :: d :: s =>
    cases hc : isBreakChar c with
    | false => rw [List.cons_append, breakAt_cons_eq_none hc, breakAt_cons_eq_none hc]
    | true =>
      rcases isBreakChar_iff.mp hc with rfl | rfl
      · rw [List.cons_append, List.cons_append, breakAt_lf, breakAt_lf]
      · rw [List.cons_append, List.cons_append, breakAt_cr, breakAt_cr]

/-- The break behind a block does not depend on what is left at the end. -/
theorem droppedBehind_append {body s tail : List Char}
    (h : ∀ c ∈ tail.head?, isBreakChar c = false) :
    droppedBehind body (s ++ tail) = droppedBehind body s := by
  unfold droppedBehind
  rw [breakAt_append h]

/-- **A source is cut into a canonical list** that makes up all of it but an open block at the
end.

**Proof sketch.** Induction along `cut`. A literal that is cut off is followed by a marker, so no
other literal follows it; the break behind a block is looked for in the text that follows it. -/
theorem canonical_cut (s : List Char) :
    Canonical (cut s).1 ∧ ∃ tail, s = rawText (cut s).1 ++ tail ∧ Remains tail (cut s).2 := by
  fun_induction cut s with
  | case1 s h =>
    have hnone := findText_eq_none_iff.mp h
    cases s with
    | nil => exact ⟨canonical_nil, [], rfl, rfl⟩
    | cons c s =>
      have hlit : IsLiteral (c :: s) := ⟨List.cons_ne_nil c s, hnone⟩
      refine ⟨canonical_cons.mpr ⟨.inl hlit, by simp, ?_, canonical_nil⟩, [], ?_, rfl⟩
      · rw [hlit.expectedBreak_eq]
      · simp [Segment.raw]
  | case2 s d lit rest h gs left hcut ih =>
    obtain ⟨hs, hfirst⟩ := findText_eq_some_iff.mp h
    have hlit : IsLiteral (d :: lit) := by
      refine ⟨List.cons_ne_nil d lit, ?_⟩
      rintro ⟨u, v, huv⟩
      have hle := hfirst.2 u ⟨v ++ (Mode.outside.marker ++ rest), by
        rw [hs, ← huv]
        simp⟩
      have hlen := congrArg List.length huv
      simp only [List.length_append, Mode.marker, List.length_cons, List.length_nil] at hlen hle
      omega
    have hhead := isBlock_head?_cut rest
    rw [hcut] at ih hhead
    obtain ⟨hc, tail, htail, hleft⟩ := ih
    refine ⟨canonical_cons.mpr ⟨.inl hlit, fun _ g hg => (hhead g hg).not_isLiteral, ?_, hc⟩,
      tail, ?_, hleft⟩
    · rw [hlit.expectedBreak_eq]
    · rw [hs, List.append_assoc, htail]
      simp [Segment.raw]
  | case3 s rest h h' =>
    obtain ⟨hs, -⟩ := findText_eq_some_iff.mp h
    exact ⟨canonical_nil, Mode.outside.marker ++ rest, hs, rfl, findText_eq_none_iff.mp h'⟩
  | case4 s rest h body after h' b gs left hcut ih =>
    obtain ⟨hs, -⟩ := findText_eq_some_iff.mp h
    obtain ⟨hrest, hfirst⟩ := findText_eq_some_iff.mp h'
    rw [hrest] at hfirst
    rw [hcut] at ih
    obtain ⟨hc, tail, htail, hleft⟩ := ih
    have hblock : IsBlock (blockText body) := ⟨body, rfl, (firstAt_append after).mp hfirst⟩
    have hafter : (b.map LineBreak.text).getD [] ++ rawText gs ++ tail = after := by
      rw [List.append_assoc, ← htail]
      exact append_behindBreak body after
    refine ⟨canonical_cons.mpr ⟨.inr hblock, fun hlit => absurd hlit hblock.not_isLiteral,
      ?_, hc⟩, tail, ?_, hleft⟩
    · rw [expectedBreak_blockText, ← droppedBehind_append hleft.head?, hafter]
    · rw [hs, hrest, ← hafter]
      simp [Segment.raw, blockText]

/-- **A canonical list is what its source is cut into,** also when a block is left open at the
end.

**Proof sketch.** Induction on the list: its first segment is what `cut` takes first, and then the
rest of the text is the source of the rest of the list. -/
theorem cut_rawText_append {gs : List Segment} {tail : List Char} {left : Option (List Char)}
    (hc : Canonical gs) (htail : Remains tail left) :
    cut (rawText gs ++ tail) = (gs, left) := by
  induction gs with
  | nil =>
    cases left with
    | none =>
      obtain rfl : tail = [] := htail
      exact cut_nil
    | some r =>
      obtain ⟨rfl, hr⟩ := htail
      exact cut_open hr
  | cons g gs ih =>
    have ih := ih (canonical_cons.mp hc).2.2.2
    rcases hc.raw_cons with ⟨hlit, hdrop, hhead⟩ | ⟨body, hbody, b, rfl, hb⟩
    · obtain ⟨text, dropped⟩ := g
      obtain rfl : dropped = none := hdrop
      dsimp only at hlit
      have hraw : rawText (⟨text, none⟩ :: gs) ++ tail = text ++ (rawText gs ++ tail) := by
        simp [Segment.raw]
      rw [hraw]
      cases hmark : rawText gs ++ tail with
      | nil =>
        rw [hmark, cut_nil] at ih
        rw [List.append_nil, cut_literal hlit, ← (Prod.mk.inj ih).1, ← (Prod.mk.inj ih).2]
      | cons c u =>
        obtain ⟨r, hr⟩ : ∃ r, rawText gs ++ tail = Mode.outside.marker ++ r := by
          cases gs with
          | nil =>
            cases left with
            | none => simp [show tail = [] from htail] at hmark
            | some r => exact ⟨r, htail.1⟩
          | cons h gs =>
            obtain ⟨body, hbody, -⟩ := hhead h rfl
            exact ⟨body ++ Mode.inside.marker ++ h.dropped.getD [] ++ rawText gs ++ tail, by
              simp [Segment.raw, hbody, blockText]⟩
        rw [← hmark, hr, cut_literal_append hlit, ← hr, ih]
    · have hraw : rawText (⟨blockText body, b.map LineBreak.text⟩ :: gs) ++ tail =
          blockText body ++ ((b.map LineBreak.text).getD [] ++ (rawText gs ++ tail)) := by
        simp [Segment.raw]
      have hb' :
          droppedBehind body ((b.map LineBreak.text).getD [] ++ (rawText gs ++ tail)) = b := by
        rw [← List.append_assoc, droppedBehind_append htail.head?, ← hb]
      have hbehind : behindBreak b ((b.map LineBreak.text).getD [] ++ (rawText gs ++ tail)) =
          rawText gs ++ tail := by
        simp [behindBreak]
      rw [hraw, cut_block hbody, hb', hbehind, ih]

/-- A canonical list is what its own source is cut into. -/
theorem cut_rawText {gs : List Segment} (hc : Canonical gs) : cut (rawText gs) = (gs, none) := by
  have hend : Remains [] none := rfl
  have h := cut_rawText_append hc hend
  rw [List.append_nil] at h
  exact h

/-! ## Places -/

/-- A literal does not end in half of a break that goes on behind it. -/
theorem lineBreaks_literal_append (t : List Char) {s : List Char}
    (h : ∀ c ∈ s.head?, isBreakChar c = false) :
    lineBreaks (t ++ s) = lineBreaks t + lineBreaks s := by
  refine lineBreaks_append fun c _ d hd => ?_
  have hd := isBreakChar_eq_false_iff.mp (h d hd)
  simp [arePair, hd]

/-- A block ends in the last character of its closing marker. -/
theorem getLast?_blockText (body : List Char) : (blockText body).getLast? = some '>' := by
  rw [show blockText body = ['<', '%'] ++ body ++ ['%'] ++ ['>'] by simp [blockText, Mode.marker]]
  exact List.getLast?_concat

/-- A block does not end in half of a break, and the break dropped behind it is a whole one. -/
theorem lineBreaks_block_append {body s : List Char} {b : Option LineBreak}
    (hb : b = droppedBehind body ((b.map LineBreak.text).getD [] ++ s)) :
    lineBreaks ((Segment.mk (blockText body) (b.map LineBreak.text)).raw ++ s) =
      lineBreaks (Segment.mk (blockText body) (b.map LineBreak.text)).raw + lineBreaks s := by
  have hend : ∀ u : List Char, lineBreaks (blockText body ++ u) =
      lineBreaks (blockText body) + lineBreaks u := by
    intro u
    refine lineBreaks_append fun c hc d _ => ?_
    obtain rfl : '>' = c := by simpa [getLast?_blockText] using hc
    simp [arePair]
  cases b with
  | none => simpa [Segment.raw] using hend s
  | some b =>
    have hfront : breakAt (b.text ++ s) = some b := breakAt_of_droppedBehind hb
    have hbreak : lineBreaks b.text = 1 := by cases b <;> rfl
    simp only [Segment.raw, Option.map_some, Option.getD_some]
    rw [List.append_assoc, hend, hend, lineBreaks_of_breakAt hfront, hbreak]
    omega

/-- **No line break is cut by the first segment** of a canonical list. -/
theorem lineBreaks_rawText_cons {g : Segment} {gs : List Segment} (hc : Canonical (g :: gs)) :
    lineBreaks (rawText (g :: gs)) = lineBreaks g.raw + lineBreaks (rawText gs) := by
  rcases hc.raw_cons with ⟨-, hdrop, hhead⟩ | ⟨body, -, b, rfl, hb⟩
  · refine lineBreaks_literal_append g.raw ?_
    cases gs with
    | nil => simp
    | cons h gs =>
      obtain ⟨body, hbody, -⟩ := hhead h rfl
      simp [Segment.raw, hbody, blockText, Mode.marker, isBreakChar]
  · exact lineBreaks_block_append hb

/-- A break in front of a text is the one in front of less text. -/
theorem expectedBreak_shorten {t s u : List Char} {dropped : Option (List Char)}
    (h : dropped = expectedBreak t (dropped.getD [] ++ (s ++ u))) :
    dropped = expectedBreak t (dropped.getD [] ++ s) := by
  unfold expectedBreak at h ⊢
  split at h
  · rename_i ht
    rw [if_pos ht]
    cases dropped with
    | none =>
      have hnone : breakAt (s ++ u) = none := Option.map_eq_none_iff.mp h.symm
      cases s with
      | nil => rfl
      | cons c s =>
        have hc : isBreakChar c = false :=
          Bool.eq_false_iff.mpr fun hc => breakAt_cons_ne_none hc hnone
        simp [breakAt_cons_eq_none hc]
    | some d =>
      obtain ⟨b, hb, rfl⟩ : ∃ b, breakAt (d ++ (s ++ u)) = some b ∧ b.text = d := by
        simpa using h.symm
      rw [Option.getD_some, breakAt_shorten hb (List.prefix_append s u)]
      rfl
  · rename_i ht
    rw [if_neg ht]
    exact h

/-- The beginning of a canonical list is canonical. -/
theorem Canonical.of_append_left {before after : List Segment}
    (hc : Canonical (before ++ after)) : Canonical before := by
  constructor
  · exact fun g hg => hc.kinds g (List.mem_append_left _ hg)
  · rintro u g h v rfl
    exact hc.apart u g h (v ++ after) (by simp)
  · rintro u g v rfl
    have hbreak := hc.breaks u g (v ++ after) (by simp)
    rw [rawText_append] at hbreak
    exact expectedBreak_shorten hbreak

/-- **A list of parts is at its place** when each part is at the end of the raw text before it,
counted from a position and a line on. -/
def Placed (position line : Nat) (parts : List Part) : Prop :=
  ∀ before p after, parts = before ++ p :: after →
    p.position = position + utf8Length (rawText (before.map Part.segment)) ∧
    p.line = line + lineBreaks (rawText (before.map Part.segment))

/-- Canonical segments give parts that are at their places.

**Proof sketch.** Induction on the segments; the lines of the first segment and of those behind it
add up because the list is canonical, and so is each of its beginnings. -/
theorem assemble_none {gs : List Segment} (hc : Canonical gs) (position line : Nat) :
    ∃ parts, assemble position line gs none = .ok parts ∧ parts.map Part.segment = gs ∧
      Placed position line parts := by
  induction gs generalizing position line with
  | nil => exact ⟨[], rfl, rfl, by simp [Placed]⟩
  | cons g gs ih =>
    obtain ⟨parts, hparts, hseg, hplaced⟩ := ih (canonical_cons.mp hc).2.2.2
      (position + utf8Length g.raw) (line + lineBreaks g.raw)
    refine ⟨g.at position line :: parts, ?_, ?_, ?_⟩
    · rw [assemble, hparts]
      rfl
    · rw [List.map_cons, Segment.segment_at, hseg]
    · intro before p after heq
      cases before with
      | nil =>
        obtain ⟨rfl, -⟩ : g.at position line = p ∧ parts = after := by simpa using heq
        exact ⟨rfl, rfl⟩
      | cons q before =>
        obtain ⟨rfl, rfl⟩ : g.at position line = q ∧ parts = before ++ p :: after := by
          simpa using heq
        obtain ⟨hposition, hline⟩ := hplaced before p after rfl
        have hfront : Canonical (g :: before.map Part.segment) := by
          rw [← hseg, List.map_append, ← List.cons_append] at hc
          exact hc.of_append_left
        rw [List.map_cons, Segment.segment_at, lineBreaks_rawText_cons hfront, rawText_cons,
          utf8Length_append]
        omega

/-- Behind canonical segments an open block is an error at its place. -/
theorem assemble_some {gs : List Segment} (hc : Canonical gs) (position line : Nat)
    (r : List Char) :
    assemble position line gs (some r) = .error (.unterminatedBlock
      (position + utf8Length (rawText gs)) (line + lineBreaks (rawText gs))) := by
  induction gs generalizing position line with
  | nil => rfl
  | cons g gs ih =>
    rw [assemble, ih (canonical_cons.mp hc).2.2.2, lineBreaks_rawText_cons hc, rawText_cons,
      utf8Length_append, Nat.add_assoc, Nat.add_assoc]
    rfl

/-! ## The parts of a source -/

/-- **A block is left open** behind the segments `gs`, up to the end of the source. -/
def LeftOpen (gs : List Segment) (s : List Char) : Prop :=
  ∃ rest, s = rawText gs ++ (Mode.outside.marker ++ rest) ∧ ¬ Mode.inside.marker <:+: rest

/-- A source is the source of a canonical list, or leaves a block open behind one. -/
theorem exists_canonical (s : List Char) :
    ∃ gs, Canonical gs ∧ (s = rawText gs ∨ LeftOpen gs s) := by
  obtain ⟨hc, tail, htail, hleft⟩ := canonical_cut s
  refine ⟨(cut s).1, hc, ?_⟩
  cases hcut : (cut s).2 with
  | none =>
    rw [hcut] at hleft
    obtain rfl : tail = [] := hleft
    rw [List.append_nil] at htail
    exact .inl htail
  | some r =>
    rw [hcut] at hleft
    obtain ⟨rfl, hr⟩ := hleft
    exact .inr ⟨r, htail, hr⟩

/-- **The source of a canonical list** is split into parts with these segments, at their
places. -/
theorem split_of_canonical {source : String} {gs : List Segment} (hc : Canonical gs)
    (hs : source.toList = rawText gs) :
    ∃ parts, split source = .ok parts ∧ parts.map Part.segment = gs ∧ Placed 0 1 parts := by
  rw [split_eq_assemble, hs, cut_rawText hc]
  exact assemble_none hc 0 1

/-- **A source that is one literal or one block** is its only part. -/
theorem split_eq_singleton {source : String}
    (h : IsLiteral source.toList ∨ IsBlock source.toList) :
    split source = .ok [⟨source, none, 0, 1⟩] := by
  have hbreak : expectedBreak source.toList [] = none := by
    simp [expectedBreak]
  have hc : Canonical [⟨source.toList, none⟩] :=
    canonical_cons.mpr ⟨h, by simp, hbreak.symm, canonical_nil⟩
  have hsource : source.toList = rawText [⟨source.toList, none⟩] := by simp [Segment.raw]
  rw [split_eq_assemble, hsource, cut_rawText hc]
  simp [assemble, Segment.at, Except.map]

/-- Such a source has one part, whose text it is. -/
theorem split_singleton {source : String}
    (h : IsLiteral source.toList ∨ IsBlock source.toList) :
    ∃ p, split source = .ok [p] ∧ p.text = source :=
  ⟨_, split_eq_singleton h, rfl⟩

/-- **A source that leaves a block open** is not split; the error is at that block. -/
theorem split_of_leftOpen {source : String} {gs : List Segment} (hc : Canonical gs)
    (hs : LeftOpen gs source.toList) :
    split source = .error (.unterminatedBlock (utf8Length (rawText gs))
      (1 + lineBreaks (rawText gs))) := by
  obtain ⟨rest, hs, hrest⟩ := hs
  have hleft : Remains (Mode.outside.marker ++ rest) (some rest) := ⟨rfl, hrest⟩
  rw [split_eq_assemble, hs, cut_rawText_append hc hleft, assemble_some hc, Nat.zero_add]

/-- **The parts of a source that is split** have canonical segments, which make up the source. -/
theorem canonical_of_split {source : String} {parts : List Part} (h : split source = .ok parts) :
    Canonical (parts.map Part.segment) ∧ source.toList = rawText (parts.map Part.segment) := by
  obtain ⟨gs, hc, hsource | hopen⟩ := exists_canonical source.toList
  · obtain ⟨parts', hparts', rfl, -⟩ := split_of_canonical hc hsource
    obtain rfl : parts' = parts := Except.ok.inj (hparts'.symm.trans h)
    exact ⟨hc, hsource⟩
  · rw [split_of_leftOpen hc hopen] at h
    cases h

/-- A source that leaves a block open is the source of no canonical list. -/
theorem LeftOpen.ne_rawText {gs hs : List Segment} {s : List Char} (hgs : Canonical gs)
    (h : LeftOpen gs s) (hhs : Canonical hs) : s ≠ rawText hs := by
  obtain ⟨rest, rfl, hrest⟩ := h
  intro heq
  have hleft : Remains (Mode.outside.marker ++ rest) (some rest) := ⟨rfl, hrest⟩
  have hcut := cut_rawText_append hgs hleft
  rw [heq, cut_rawText hhs] at hcut
  cases (Prod.mk.inj hcut).2

/-- There is at most one canonical list for a source. -/
theorem Canonical.unique {gs hs : List Segment} (hgs : Canonical gs) (hhs : Canonical hs)
    (h : rawText gs = rawText hs) : gs = hs := by
  have hcut := cut_rawText hgs
  rw [h, cut_rawText hhs] at hcut
  exact (Prod.mk.inj hcut).1.symm

/-- **The parts of a source are its canonical segments, at their places.** A source is split into
parts with given segments just if these are canonical and make up the source; each part is at the
byte where the raw text before it ends, and on the line that follows the breaks in that text.

**Proof sketch.** A source is that of a canonical list or leaves a block open behind one. In the
first case the parts have these segments, and no other canonical list makes up the source; in the
second there are no parts, and no canonical list makes up the source. -/
theorem split_eq_ok_iff (source : String) :
    (∀ gs : List Segment, (∃ parts, split source = .ok parts ∧ parts.map Part.segment = gs) ↔
      rawText gs = source.toList ∧ Canonical gs) ∧
    ∀ parts, split source = .ok parts → ∀ before p after, parts = before ++ p :: after →
      p.position = utf8Length (rawText (before.map Part.segment)) ∧
      p.line = 1 + lineBreaks (rawText (before.map Part.segment)) := by
  obtain ⟨hs, hc, hsource | hopen⟩ := exists_canonical source.toList
  · obtain ⟨parts, hparts, hseg, hplaced⟩ := split_of_canonical hc hsource
    rw [hparts]
    refine ⟨fun gs => ⟨?_, ?_⟩, ?_⟩
    · rintro ⟨parts', heq, rfl⟩
      obtain rfl : parts = parts' := Except.ok.inj heq
      rw [hseg]
      exact ⟨hsource.symm, hc⟩
    · rintro ⟨hraw, hgs⟩
      exact ⟨parts, rfl, by rw [hseg, hgs.unique hc (hraw.trans hsource)]⟩
    · intro parts' heq before p after hsplit
      obtain rfl : parts = parts' := Except.ok.inj heq
      have hp := hplaced before p after hsplit
      rw [Nat.zero_add] at hp
      exact hp
  · rw [split_of_leftOpen hc hopen]
    refine ⟨fun gs => ⟨?_, ?_⟩, ?_⟩
    · rintro ⟨parts, heq, -⟩
      cases heq
    · rintro ⟨hraw, hgs⟩
      exact absurd hraw.symm (hopen.ne_rawText hc hgs)
    · intro parts heq
      cases heq

/-- A block and a value block: the break behind the first is dropped, and the second is on the
next line. -/
theorem split_eq_ok_iff_two_blocks :
    ∃ parts, split "<% f() %>\r\n<%=x%>" = .ok parts ∧
      parts.map Part.segment =
        [⟨blockText " f() ".toList, some ['\r', '\n']⟩, ⟨blockText "=x".toList, none⟩] ∧
      parts.map Part.position = [0, 11] ∧ parts.map Part.line = [1, 2] := by
  have hf : IsBlock (blockText " f() ".toList) :=
    ⟨_, rfl, (findText_eq_some_iff.mp (by decide : findText ['%', '>'] _ = some (_, []))).2⟩
  have hx : IsBlock (blockText "=x".toList) :=
    ⟨_, rfl, (findText_eq_some_iff.mp (by decide : findText ['%', '>'] _ = some (_, []))).2⟩
  have hlast : Canonical [⟨blockText "=x".toList, none⟩] :=
    canonical_cons.mpr ⟨.inr hx, fun h => absurd h hx.not_isLiteral, by decide, canonical_nil⟩
  have hgs : Canonical
      [⟨blockText " f() ".toList, some ['\r', '\n']⟩, ⟨blockText "=x".toList, none⟩] :=
    canonical_cons.mpr ⟨.inr hf, fun h => absurd h hf.not_isLiteral, by decide, hlast⟩
  obtain ⟨hiff, hplaces⟩ := split_eq_ok_iff "<% f() %>\r\n<%=x%>"
  obtain ⟨parts, hparts, hseg⟩ := (hiff _).mpr ⟨by decide, hgs⟩
  refine ⟨parts, hparts, hseg, ?_⟩
  obtain ⟨p, ps, rfl, hp, hps⟩ := List.map_eq_cons_iff.mp hseg
  obtain ⟨q, qs, rfl, hq, hqs⟩ := List.map_eq_cons_iff.mp hps
  obtain rfl : qs = [] := List.map_eq_nil_iff.mp hqs
  obtain ⟨hposition, hline⟩ := hplaces _ hparts [] p [q] rfl
  obtain ⟨hposition', hline'⟩ := hplaces _ hparts [p] q [] rfl
  rw [List.map_singleton, hp] at hposition' hline'
  have hlen : utf8Length (rawText [⟨blockText " f() ".toList, some ['\r', '\n']⟩]) = 11 := by decide
  have hbreaks : lineBreaks (rawText [⟨blockText " f() ".toList, some ['\r', '\n']⟩]) = 1 := by
    decide
  rw [hlen] at hposition'
  rw [hbreaks] at hline'
  simp [hposition, hline, hposition', hline']

end Stencil.Template
