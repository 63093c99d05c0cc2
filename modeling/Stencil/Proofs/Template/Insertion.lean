import Stencil.Proofs.Template.CodePart
set_option autoImplicit false

/-!
# Directives on lines of their own

A configuration directive with the line break behind it can be put into a template, or taken out
of it, between two lines: the texts and blocks of the template stay what they are, and the parsed
template has in addition what the directive declares.

## Main definitions

* `Stencil.Template.Scan.Meets` — the scanner comes to a place in a mode.
* `Stencil.Template.Parted` — segments that are parted in two, between segments or within a literal.
* `Stencil.Template.Configures` — the text of a directive that declares a setting.
* `Stencil.Template.CompilationUnit.Gains` — a unit that has one directive more than another.

## Main results

* `Stencil.Template.exists_parted` — a source is parted where the scanner stands between two lines.
* `Stencil.Template.Canonical.insert` — a block put in between leaves the segments as they are.
* `Stencil.Template.parse_insert_directive` — a directive on a line of its own leaves no trace in
  the text.
-/

namespace Stencil.Template

open Stencil.Text

/-! ## Places of the scanner -/

/-- **The scanner comes to a place** in a mode, with a given text in front of it: it is there, or
it comes there behind its next token. -/
inductive Scan.Meets (mode : Mode) (rest : List Char) : Scan → Prop
  | here (position line : Nat) : Meets mode rest ⟨mode, position, line, rest⟩
  | later {s : Scan} (h : Meets mode rest s.advance) : Meets mode rest s

namespace Scan

variable {mode m : Mode} {rest s : List Char} {position line : Nat}

/-- The scanner behind a known piece. -/
theorem advance_of_nextLexeme {l : Lexeme} {t : List Char} (h : nextLexeme m s = (l, t)) :
    (Scan.mk m position line s).advance =
      ⟨m.after l, position + utf8Length l.text, line + l.lines, t⟩ := by
  simp [advance, token, h, Token.text]

/-- What is in front of the scanner at a place to come is the end of what is in front of it
now. -/
theorem Meets.suffix {s : Scan} (h : Meets mode rest s) : rest <:+ s.rest := by
  induction h with
  | here => exact List.suffix_refl _
  | @later s h ih => exact ih.trans ⟨_, text_append_nextLexeme s.mode s.rest⟩

/-- **A scanner in front of a text without markers** comes to a place in that text, or to one
behind it.

**Proof sketch.** Induction on the length of the text, whose first piece is a line break that ends
inside the text, or a character. -/
theorem Meets.plain {tail : List Char} (htail : ∀ c ∈ tail.head?, isBreakChar c = false) :
    ∀ (n : Nat) (u : List Char) (position line : Nat), u.length = n → Clear m u tail →
      Meets mode rest ⟨m, position, line, u ++ tail⟩ →
      (m = mode ∧ ∃ v w, u = v ++ w ∧ rest = w ++ tail) ∨
        ∃ position line, Meets mode rest ⟨m, position, line, tail⟩ := by
  intro n
  induction n using Nat.strongRecOn with
  | ind n ih =>
    intro u position line hlen hclear hmeets
    cases u with
    | nil => exact .inr ⟨position, line, hmeets⟩
    | cons c u =>
      cases hmeets with
      | here => exact .inl ⟨rfl, [], c :: u, rfl, rfl⟩
      | later hmeets =>
        -- Behind the first piece, which is the text `t`, the rest of `u` is in front.
        have hpiece {l : Lexeme} {t v : List Char} (ht : t ++ v = c :: u)
            (hl : nextLexeme m (c :: u ++ tail) = (l, v ++ tail)) (hafter : m.after l = m)
            (hpos : t ≠ []) :
            (m = mode ∧ ∃ v w, c :: u = v ++ w ∧ rest = w ++ tail) ∨
              ∃ position line, Meets mode rest ⟨m, position, line, tail⟩ := by
          rw [advance_of_nextLexeme hl, hafter] at hmeets
          have hshort : v.length < n := by
            have := List.length_pos_iff.mpr hpos
            rw [← hlen, ← ht, List.length_append]
            omega
          rw [← ht] at hclear
          rcases ih v.length hshort v _ _ rfl hclear.of_append hmeets with
            ⟨hm, v', w, rfl, hrest⟩ | hbehind
          · exact .inl ⟨hm, t ++ v', w, by rw [← ht, List.append_assoc], hrest⟩
          · exact .inr hbehind
        cases hc : isBreakChar c with
        | true =>
          obtain ⟨b, hb⟩ := Option.ne_none_iff_exists'.mp
            (breakAt_cons_ne_none (s := u ++ tail) hc)
          obtain ⟨v, hv⟩ := prefix_of_breakAt_append (List.cons_ne_nil c u) htail hb
          have hb' : breakAt (b.text ++ (v ++ tail)) = some b := by
            rw [← List.append_assoc, hv]
            exact hb
          have hl := nextLexeme_break m hb'
          rw [← List.append_assoc, hv] at hl
          exact hpiece hv hl rfl (by cases b <;> simp [LineBreak.text])
        | false =>
          have hm : ¬ m.marker <+: c :: (u ++ tail) := hclear [] (c :: u) rfl (by simp)
          exact hpiece (t := [c]) rfl (nextLexeme_character hc hm) rfl (by simp)

end Scan

/-! ## Parting a source -/

/-- **Segments that are parted in two:** between segments, or within a literal. -/
inductive Parted : List Segment → List Segment → List Segment → Prop
  | between (before after : List Segment) : Parted (before ++ after) before after
  | within (before after : List Segment) (v w : List Char) (hlit : IsLiteral (v ++ w))
    (hv : v ≠ []) (hw : w ≠ []) :
    Parted (before ++ ⟨v ++ w, none⟩ :: after) (before ++ [⟨v, none⟩]) (⟨w, none⟩ :: after)

/-- Segments that are parted behind the first. -/
theorem Parted.cons {gs before after : List Segment} (h : Parted gs before after) (g : Segment) :
    Parted (g :: gs) (g :: before) after := by
  cases h with
  | between => exact .between (g :: before) after
  | within before after v w hlit hv hw => exact .within (g :: before) after v w hlit hv hw

/-- **A literal is parted anywhere,** its ends included. -/
theorem exists_parted_literal {v w : List Char} (hlit : IsLiteral (v ++ w)) (gs : List Segment) :
    ∃ before after, Parted (⟨v ++ w, none⟩ :: gs) before after ∧ rawText before = v ∧
      rawText after = w ++ rawText gs := by
  by_cases hv : v = []
  · subst hv
    exact ⟨[], _, .between [] _, rfl, by simp [Segment.raw]⟩
  · by_cases hw : w = []
    · subst hw
      exact ⟨[⟨v ++ [], none⟩], gs, .between [_] gs, by simp [Segment.raw], rfl⟩
    · exact ⟨[⟨v, none⟩], ⟨w, none⟩ :: gs, .within [] gs v w hlit hv hw, by simp [Segment.raw],
        by simp [Segment.raw]⟩

/-- A literal in front of canonical segments has no marker in it or across its end. -/
theorem Canonical.clear_literal {t : List Char} {dropped : Option (List Char)}
    {gs : List Segment} (hc : Canonical (⟨t, dropped⟩ :: gs)) (ht : IsLiteral t) :
    Clear .outside t (rawText gs) ∧ ∀ c ∈ (rawText gs).head?, isBreakChar c = false := by
  cases gs with
  | nil => exact ⟨ clear_of_not_infix ht.2, by simp⟩
  | cons g gs =>
    have hg := (hc.kinds g (by simp)).resolve_left fun hg => hc.apart [] _ g gs rfl ⟨ht, hg⟩
    obtain ⟨body, hbody, -⟩ := hg
    have hraw : rawText (g :: gs) =
        Mode.outside.marker ++ (body ++ Mode.inside.marker ++ g.dropped.getD [] ++ rawText gs) := by
      simp [Segment.raw, hbody, blockText]
    rw [hraw]
    exact ⟨clear_of_firstAt ( firstAt_of_not_infix ht.2 _), head?_marker .outside _⟩

/-- **Behind a block** the scanner comes to the break that is dropped, or to what follows it. -/
theorem Scan.Meets.block {body after b : List Char} {position line : Nat}
    (hbody : FirstAt Mode.inside.marker body (body ++ Mode.inside.marker))
    (h : Meets .outside b ⟨.outside, position, line, blockText body ++ after⟩) :
    b = blockText body ++ after ∨
      ∃ position line, Meets .outside b ⟨.outside, position, line, after⟩ := by
  have hs : blockText body ++ after =
      Mode.outside.marker ++ (body ++ (Mode.inside.marker ++ after)) := by simp [blockText]
  rw [hs] at h ⊢
  cases h with
  | here => exact .inl rfl
  | later h =>
    rw [advance_of_nextLexeme (nextLexeme_marker .outside _)] at h
    have hclear : Clear .inside body (Mode.inside.marker ++ after) := by
      refine clear_of_firstAt ?_
      rw [← List.append_assoc]
      exact (firstAt_append after).mpr hbody
    rcases Meets.plain (head?_marker .inside after) _ body _ _ rfl hclear h with
      ⟨hmode, -⟩ | ⟨position, line, h⟩
    · cases hmode
    · cases h with
      | later h =>
        rw [advance_of_nextLexeme (nextLexeme_marker .inside after)] at h
        exact .inr ⟨_, _, h⟩

/-- **A source is parted where the scanner stands between two lines,** outside of every block. -/
theorem exists_parted {gs : List Segment} (hc : Canonical gs) {a b : List Char}
    {position line : Nat} (hab : rawText gs = a ++ b)
    (ha : ∀ c ∈ a.getLast?, isBreakChar c = true)
    (h : Scan.Meets .outside b ⟨.outside, position, line, rawText gs⟩) :
    ∃ before after, Parted gs before after ∧ rawText before = a ∧ rawText after = b := by
  induction gs generalizing a position line with
  | nil =>
    obtain ⟨rfl, rfl⟩ := List.append_eq_nil_iff.mp hab.symm
    exact ⟨[], [], .between [] [], rfl, rfl⟩
  | cons g gs ih =>
    have hc' := (canonical_cons.mp hc).2.2.2
    -- Where the scanner comes to what is behind the first segment, that segment is in front.
    have hbehind {position line : Nat}
        (h : Scan.Meets .outside b ⟨.outside, position, line, rawText gs⟩) :
        ∃ before after, Parted (g :: gs) before after ∧ rawText before = a ∧
          rawText after = b := by
      obtain ⟨a', ha'⟩ := h.suffix
      have hcut : a = g.raw ++ a' := by
        refine (List.append_left_inj b).mp ?_
        rw [← hab, List.append_assoc, ha', rawText_cons]
      have hlast : ∀ c ∈ a'.getLast?, isBreakChar c = true := by
        intro c hlast
        refine ha c ?_
        rw [hcut, List.getLast?_append, hlast]
        rfl
      obtain ⟨before, after, hparted, hbefore, hafter⟩ := ih hc' ha'.symm hlast h
      exact ⟨g :: before, after, hparted.cons g, by rw [rawText_cons, hbefore, hcut], hafter⟩
    rcases hc.raw_cons with ⟨hlit, hdrop, -⟩ | ⟨body, hbody, o, rfl, ho⟩
    · obtain ⟨t, dropped⟩ := g
      obtain rfl : dropped = none := hdrop
      obtain ⟨hclear, htail⟩ := hc.clear_literal hlit
      have hraw : rawText (⟨t, none⟩ :: gs) = t ++ rawText gs := by simp [Segment.raw]
      rw [hraw] at h hab
      rcases Scan.Meets.plain htail _ t _ _ rfl hclear h with ⟨-, v, w, rfl, rfl⟩ | ⟨_, _, h⟩
      · obtain rfl : v = a := by
          refine (List.append_left_inj (w ++ rawText gs)).mp ?_
          rw [← hab, List.append_assoc]
        exact exists_parted_literal hlit gs
      · exact hbehind h
    · have hraw : rawText (⟨blockText body, o.map LineBreak.text⟩ :: gs) =
          blockText body ++ ((o.map LineBreak.text).getD [] ++ rawText gs) := by
        simp [Segment.raw]
      rw [hraw] at h
      rcases h.block hbody with rfl | ⟨_, _, h⟩
      · obtain rfl : a = [] := by
          rw [hraw] at hab
          simpa using hab.symm
        exact ⟨[], _, .between [] _, rfl, hraw⟩
      · cases o with
        | none => exact hbehind h
        | some lb =>
          have hlb : breakAt (lb.text ++ rawText gs) = some lb := breakAt_of_droppedBehind ho
          cases h with
          | here =>
            -- A block does not end in a line break.
            have hend : a = blockText body := by
              refine (List.append_left_inj
                (((some lb).map LineBreak.text).getD [] ++ rawText gs)).mp ?_
              rw [← hab, hraw]
            exact absurd (ha '>' (by rw [hend, getLast?_blockText]; rfl)) (by decide)
          | later h =>
            rw [show ((some lb).map LineBreak.text).getD [] = lb.text from rfl,
              Scan.advance_of_nextLexeme (nextLexeme_break .outside hlb)] at h
            exact hbehind h
/-! ## Putting a block in between -/

/-- A break character in front of a text is looked for in the text only, if what follows it begins
with none. -/
theorem expectedBreak_append {t follow tail : List Char}
    (h : ∀ c ∈ tail.head?, isBreakChar c = false) :
    expectedBreak t (follow ++ tail) = expectedBreak t follow := by
  rw [expectedBreak, expectedBreak, breakAt_append h]

/-- **Canonical segments with a block behind them** and canonical segments from that block on. -/
theorem Canonical.append_block {before after : List Segment} {g : Segment}
    (hbefore : Canonical before) (hg : IsBlock g.text) (hafter : Canonical (g :: after)) :
    Canonical (before ++ g :: after) := by
  have hhead : ∀ c ∈ (rawText (g :: after)).head?, isBreakChar c = false := by
    obtain ⟨body, hbody, -⟩ := hg
    simp [Segment.raw, hbody, blockText, Mode.marker, isBreakChar]
  induction before with
  | nil => exact hafter
  | cons h before ih =>
    obtain ⟨hkind, hapart, hbreak, hbefore⟩ := canonical_cons.mp hbefore
    rw [List.cons_append]
    refine canonical_cons.mpr ⟨hkind, fun hlit => ?_, ?_, ih hbefore⟩
    · cases before with
      | nil => simpa using hg.not_isLiteral
      | cons i before => exact hapart hlit
    · rw [rawText_append, ← List.append_assoc, expectedBreak_append hhead]
      exact hbreak

/-- The end of a canonical list is canonical. -/
theorem Canonical.of_append_right {before after : List Segment}
    (hc : Canonical (before ++ after)) : Canonical after := by
  induction before with
  | nil => exact hc
  | cons g before ih => exact ih (canonical_cons.mp hc).2.2.2

/-- A piece of a literal is a literal. -/
theorem IsLiteral.of_infix {t u : List Char} (h : IsLiteral t) (hu : u ≠ []) (hinside : u <:+: t) :
    IsLiteral u :=
  ⟨hu, fun hmarker => h.2 (hmarker.trans hinside)⟩

/-- The beginning of a canonical list that ends within a literal is canonical. -/
theorem Canonical.shorten_literal {before after : List Segment} {v w : List Char}
    (hc : Canonical (before ++ ⟨v ++ w, none⟩ :: after)) (hlit : IsLiteral (v ++ w))
    (hv : v ≠ []) : Canonical (before ++ [⟨v, none⟩]) := by
  have hlitv : IsLiteral v := hlit.of_infix hv (List.prefix_append v w).isInfix
  induction before with
  | nil => exact canonical_cons.mpr ⟨.inl hlitv, by simp, (hlitv.expectedBreak_eq _).symm,
      canonical_nil⟩
  | cons g before ih =>
    rw [List.cons_append] at hc ⊢
    obtain ⟨hkind, hapart, hbreak, hc⟩ := canonical_cons.mp hc
    refine canonical_cons.mpr ⟨hkind, fun hg => ?_, ?_, ih hc⟩
    · cases before with
      | nil => exact absurd hlit (hapart hg _ rfl)
      | cons h before => exact hapart hg
    · have hraw : rawText (before ++ ⟨v ++ w, none⟩ :: after) =
          rawText (before ++ [⟨v, none⟩]) ++ (w ++ rawText after) := by
        simp [Segment.raw]
      rw [hraw] at hbreak
      exact expectedBreak_shorten hbreak

/-- Both parts of a canonical list are canonical. -/
theorem Parted.canonical {gs before after : List Segment} (h : Parted gs before after)
    (hc : Canonical gs) : Canonical before ∧ Canonical after := by
  cases h with
  | between => exact ⟨hc.of_append_left, hc.of_append_right⟩
  | within before after v w hlit hv hw =>
    have hlitw : IsLiteral w := hlit.of_infix hw (List.suffix_append v w).isInfix
    obtain ⟨-, hapart, -, hafter⟩ := canonical_cons.mp hc.of_append_right
    exact ⟨hc.shorten_literal hlit hv, canonical_cons.mpr ⟨.inl hlitw, fun _ => hapart hlit,
      (hlitw.expectedBreak_eq _).symm, hafter⟩⟩

/-! ## What is kept and what is declared -/

/-- The texts of segments that are kept as code parts. -/
def kept (gs : List Segment) : List (List Char) :=
  (gs.map Segment.text).filter fun t => ¬ IsConfiguration t

/-- The texts of segments that are taken out as configuration directives. -/
def declared (gs : List Segment) : List (List Char) :=
  (gs.map Segment.text).filter fun t => IsConfiguration t

@[simp] theorem kept_append (gs hs : List Segment) : kept (gs ++ hs) = kept gs ++ kept hs := by
  simp [kept]

@[simp] theorem declared_append (gs hs : List Segment) :
    declared (gs ++ hs) = declared gs ++ declared hs := by
  simp [declared]

/-- A configuration directive is taken out. -/
theorem kept_cons_configuration {g : Segment} (hg : IsConfiguration g.text) (gs : List Segment) :
    kept (g :: gs) = kept gs ∧ declared (g :: gs) = g.text :: declared gs := by
  simp [kept, declared, hg]

/-- A literal is no configuration directive. -/
theorem IsLiteral.not_isConfiguration {t : List Char} (h : IsLiteral t) :
    ¬ IsConfiguration t := fun hconf =>
  h.2 (List.IsInfix.trans ⟨[], ['@'], rfl⟩ hconf.1.isInfix)

/-- **Parting segments** cuts nothing but literals: the texts that are kept are the same put
together, and so are the blocks among them and the directives. -/
theorem Parted.texts {gs before after : List Segment} (h : Parted gs before after) :
    (kept gs).flatten = (kept before ++ kept after).flatten ∧
    (kept gs).filter Mode.outside.marker.isPrefixOf =
      (kept before ++ kept after).filter Mode.outside.marker.isPrefixOf ∧
    declared gs = declared before ++ declared after := by
  cases h with
  | between => simp [kept, declared]
  | within before after v w hlit hv hw =>
    have hlitv : IsLiteral v := hlit.of_infix hv (List.prefix_append v w).isInfix
    have hlitw : IsLiteral w := hlit.of_infix hw (List.suffix_append v w).isInfix
    have hblock {t : List Char} (ht : IsLiteral t) : Mode.outside.marker.isPrefixOf t = false :=
      Bool.eq_false_iff.mpr fun hp => ht.2 (List.isPrefixOf_iff_prefix.mp hp).isInfix
    simp [kept, declared, hlit.not_isConfiguration, hlitv.not_isConfiguration,
      hlitw.not_isConfiguration, hblock hlit, hblock hlitv, hblock hlitw]

/-- The code parts of a unit are the texts that are kept. -/
theorem DrawnFrom.kept {config : ParserConfig} {parts : List Part} {unit : CompilationUnit}
    (h : DrawnFrom config parts unit) :
    unit.codeParts.map String.toList = Template.kept (parts.map Part.segment) := by
  rw [h.codeParts, Template.kept, List.map_map, List.map_map, List.filter_map]
  rfl

/-- A text declares a key and a value: these are its only words. -/
def Says (text : List Char) (d : Directive) : Prop :=
  words (interior text) = [d.key.toList, d.value.toList]

/-- The blocks among texts. -/
theorem map_filter_isBlockText (texts : List String) :
    (texts.filter Part.isBlockText).map String.toList =
      (texts.map String.toList).filter Mode.outside.marker.isPrefixOf := by
  rw [List.filter_map]
  rfl

/-- A list that is related to two lists one behind the other is parted in two. -/
theorem exists_append_of_forall₂ {α β : Type} {r : α → β → Prop} {xs ys : List α} {zs : List β}
    (h : List.Forall₂ r (xs ++ ys) zs) :
    ∃ us vs, zs = us ++ vs ∧ List.Forall₂ r xs us ∧ List.Forall₂ r ys vs := by
  induction xs generalizing zs with
  | nil => exact ⟨[], zs, rfl, .nil, h⟩
  | cons x xs ih =>
    obtain ⟨z, zs, hz, hzs, rfl⟩ := List.forall₂_cons_left_iff.mp h
    obtain ⟨us, vs, rfl, hus, hvs⟩ := ih hzs
    exact ⟨z :: us, vs, rfl, .cons hz hus, hvs⟩

/-- The directives of parts are what the texts that are taken out say. -/
theorem forall₂_declares_iff (parts : List Part) (ds : List Directive) :
    List.Forall₂ Declares (parts.filter fun p => IsConfiguration p.text.toList) ds ↔
      List.Forall₂ Says (declared (parts.map Part.segment)) ds := by
  rw [declared, List.map_map, List.filter_map, List.forall₂_map_left_iff]
  rfl

/-! ## One directive more -/

/-- **The text of a directive that declares a setting.** -/
structure Configures (text : List Char) (d : Directive) : Prop where
  block : IsBlock text
  configuration : IsConfiguration text
  declares : Says text d
  key : d.key ∈ settingKeys

/-- A directive writes no value, so the break behind it is dropped. -/
theorem Configures.expectedBreak_eq {text : List Char} {d : Directive} (h : Configures text d)
    {l : LineBreak} {follow : List Char} (hl : breakAt (l.text ++ follow) = some l) :
    expectedBreak text (l.text ++ follow) = some l.text := by
  obtain ⟨rest, rfl⟩ := h.configuration.1
  have hopen : Mode.outside.marker.isPrefixOf (directiveStart ++ rest) = true := rfl
  have hvalue : ['<', '%', '='].isPrefixOf (directiveStart ++ rest) = false := rfl
  rw [expectedBreak, hopen, hvalue, hl]
  rfl

/-- The values of directives one list behind another. -/
theorem Directive.values_append (keys : List String) (ds ds' : List Directive) :
    values keys (ds ++ ds') = values keys ds ++ values keys ds' := by
  simp [values]

/-- **A unit that has one directive more than another.** The parts of the other are parted in two,
and the directive stands in between; it is applied in its turn, so the language that it names
counts if no directive behind it names one. -/
structure CompilationUnit.Gains (config : ParserConfig) (unit unit' : CompilationUnit)
    (g : Segment) (d : Directive) (before after : List Segment) (ds ds' : List Directive) :
    Prop where
  parted : Parted (unit.parts.map Part.segment) before after
  parts : unit'.parts.map Part.segment = before ++ g :: after
  placed : Placed 0 1 unit'.parts
  matched : List.Forall₂ Says (declared before) ds ∧ List.Forall₂ Says (declared after) ds'
  old : unit.directives = ds ++ ds'
  new : unit'.directives = ds ++ d :: ds'
  imports : unit'.imports =
    if d.key ∈ importKeys then unit.imports.insert d.value else unit.imports
  references : unit'.references =
    if d.key ∈ referenceKeys then
      unit.references.insert (withLibrarySuffix d.value config.librarySuffix)
    else unit.references
  language : unit'.language =
    if d.key ∈ languageKeys ∧ ∀ other ∈ ds', other.key ∉ languageKeys then
      normalizeLanguage d.value
    else unit.language

section OneMore

variable {config : ParserConfig} {parts parts' : List Part} {unit unit' : CompilationUnit}
  {d : Directive} {ds ds' : List Directive}

/-- The imports with one directive more. -/
theorem DrawnFrom.imports_of_one_more (h : DrawnFrom config parts unit)
    (h' : DrawnFrom config parts' unit') (hold : unit.directives = ds ++ ds')
    (hnew : unit'.directives = ds ++ d :: ds') :
    unit'.imports = if d.key ∈ importKeys then unit.imports.insert d.value else unit.imports := by
  refine NameSet.eq_of_mem_iff fun name => ?_
  rw [h'.imports, hnew, Directive.values_append]
  split
  · rename_i hkey
    rw [NameSet.mem_insert, h.imports, hold, Directive.values_append,
      Directive.values_cons_of_mem _ hkey]
    grind
  · rename_i hkey
    rw [h.imports, hold, Directive.values_append, Directive.values_cons_of_not_mem _ hkey]

/-- The references with one directive more. -/
theorem DrawnFrom.references_of_one_more (h : DrawnFrom config parts unit)
    (h' : DrawnFrom config parts' unit') (hold : unit.directives = ds ++ ds')
    (hnew : unit'.directives = ds ++ d :: ds') :
    unit'.references = if d.key ∈ referenceKeys then
      unit.references.insert (withLibrarySuffix d.value config.librarySuffix)
      else unit.references := by
  refine NameSet.eq_of_mem_iff fun name => ?_
  rw [h'.references, hnew, Directive.values_append]
  split
  · rename_i hkey
    rw [NameSet.mem_insert, h.references, hold, Directive.values_append,
      Directive.values_cons_of_mem _ hkey]
    simp only [List.mem_append, List.mem_cons, or_and_right, exists_or, exists_eq_left,
      eq_comm (a := name)]
    exact or_left_comm
  · rename_i hkey
    rw [h.references, hold, Directive.values_append, Directive.values_cons_of_not_mem _ hkey]

/-- The language with one directive more. -/
theorem DrawnFrom.language_of_one_more (h : DrawnFrom config parts unit)
    (h' : DrawnFrom config parts' unit') (hold : unit.directives = ds ++ ds')
    (hnew : unit'.directives = ds ++ d :: ds') :
    unit'.language =
      if d.key ∈ languageKeys ∧ ∀ other ∈ ds', other.key ∉ languageKeys then
        normalizeLanguage d.value
      else unit.language := by
  have hnone : (∀ other ∈ ds', other.key ∉ languageKeys) ↔
      Directive.values languageKeys ds' = [] := by
    simp [Directive.values]
  rw [h'.language, h.language, hold, hnew, Directive.values_append, Directive.values_append]
  simp only [hnone]
  by_cases hkey : d.key ∈ languageKeys
  · rw [Directive.values_cons_of_mem _ hkey]
    cases hvalues : Directive.values languageKeys ds' with
    | nil => simp [hkey, languageOf]
    | cons value values => simp [languageOf, List.getLast?_append]
  · rw [Directive.values_cons_of_not_mem _ hkey, if_neg fun hboth => hkey hboth.1]

end OneMore

/-- **A directive on a line of its own leaves no trace in the text.** Between `a` and `b`, where
the scanner stands at the start of a line outside of every block, a configuration directive is put
in, with a line break behind it that does not go on in `b`. Then the template is parsed as before:
the code parts put together are the same text, the blocks among them are the same, and the unit
has in addition what the directive declares.

**Proof sketch.** The segments of the source are parted where the scanner stands, between two of
them or within a literal. With the directive and its break in between they are canonical again, so
they are the segments of the longer source. -/
theorem parse_insert_directive {config : ParserConfig} {a b text : String} {l : LineBreak}
    {d : Directive} {unit : CompilationUnit} (hparse : parse config (a ++ b) = .ok unit)
    (hline : ∀ c ∈ a.toList.getLast?, isBreakChar c = true)
    (houtside : (Scan.start (a ++ b).toList).Meets .outside b.toList)
    (hd : Configures text.toList d) (hl : breakAt (l.text ++ b.toList) = some l) :
    ∃ unit', parse config (a ++ text ++ String.ofList l.text ++ b) = .ok unit' ∧
      String.join unit'.codeParts = String.join unit.codeParts ∧
      unit'.codeParts.filter Part.isBlockText = unit.codeParts.filter Part.isBlockText ∧
      ∃ before after ds ds', rawText before = a.toList ∧ rawText after = b.toList ∧
        unit.Gains config unit' ⟨text.toList, some l.text⟩ d before after ds ds' := by
  obtain ⟨parts, hsplit, hdrawn, -⟩ := (parse_eq_ok_iff config (a ++ b) unit).mp hparse
  obtain ⟨hraw, hc⟩ := ((split_eq_ok_iff (a ++ b)).1 _).mp ⟨parts, hsplit, rfl⟩
  -- The segments are parted where the scanner stands.
  have hab : rawText (parts.map Part.segment) = a.toList ++ b.toList := by
    rw [hraw, String.toList_append]
  rw [← hraw] at houtside
  obtain ⟨before, after, hparted, hbefore, hafter⟩ := exists_parted hc hab hline houtside
  obtain ⟨hcbefore, hcafter⟩ := hparted.canonical hc
  obtain ⟨hjoin, hblocks, hdeclared⟩ := hparted.texts
  -- With the directive in between they are the segments of the longer source.
  have hcnew : Canonical (before ++ ⟨text.toList, some l.text⟩ :: after) := by
    refine hcbefore.append_block hd.block (canonical_cons.mpr ⟨.inr hd.block, fun hlit =>
      absurd hlit hd.block.not_isLiteral, ?_, hcafter⟩)
    rw [hafter]
    exact (hd.expectedBreak_eq hl).symm
  have hnew : (a ++ text ++ String.ofList l.text ++ b).toList =
      rawText (before ++ ⟨text.toList, some l.text⟩ :: after) := by
    simp [Segment.raw, hbefore, hafter]
  obtain ⟨parts', hsplit', hseg', hplaced⟩ := split_of_canonical hcnew hnew
  -- The directives are those that there were and the one in between.
  have hsays := (forall₂_declares_iff parts unit.directives).mp hdrawn.directives
  rw [hdeclared] at hsays
  obtain ⟨ds, ds', hold, hds, hds'⟩ := exists_append_of_forall₂ hsays
  have hsays' : List.Forall₂ Says (declared (parts'.map Part.segment)) (ds ++ d :: ds') := by
    rw [hseg', declared_append, (kept_cons_configuration hd.configuration after).2]
    exact List.rel_append hds (.cons hd.declares hds')
  have hkeys : ∀ other ∈ ds ++ d :: ds', other.key ∈ settingKeys := by
    have hkeys := hdrawn.keys
    rw [hold] at hkeys
    simp only [List.forall_mem_append, List.forall_mem_cons] at hkeys ⊢
    exact ⟨hkeys.1, hd.key, hkeys.2⟩
  obtain ⟨unit', hunit', hnew⟩ : ∃ unit', CompilationUnit.ofParts config parts' = .ok unit' ∧
      unit'.directives = ds ++ d :: ds' :=
    ⟨_, CompilationUnit.foldlM_addPart_eq_ok_iff.mpr
      ⟨_, (forall₂_declares_iff parts' _).mpr hsays', hkeys, rfl⟩, rfl⟩
  have hdrawn' := CompilationUnit.ofParts_eq_ok_iff.mp hunit'
  have hkept : unit'.codeParts.map String.toList = kept before ++ kept after := by
    rw [hdrawn'.kept, hseg', kept_append, (kept_cons_configuration hd.configuration after).1]
  refine ⟨unit', ?_, ?_, ?_, before, after, ds, ds', hbefore, hafter, ?_⟩
  · rw [parse, hsplit']
    exact hunit'
  · rw [← String.toList_inj, String.toList_join, String.toList_join, List.flatMap_def,
      List.flatMap_def, hkept, ← hjoin, hdrawn.kept]
  · refine List.map_injective_iff.mpr (fun _ _ h => String.toList_injective h) ?_
    rw [map_filter_isBlockText, map_filter_isBlockText, hkept, ← hblocks, hdrawn.kept]
  · constructor
    · rw [hdrawn.parts]
      exact hparted
    · rw [hdrawn'.parts]
      exact hseg'
    · rw [hdrawn'.parts]
      exact hplaced
    · exact ⟨hds, hds'⟩
    · exact hold
    · exact hnew
    · exact hdrawn.imports_of_one_more hdrawn' hold hnew
    · exact hdrawn.references_of_one_more hdrawn' hold hnew
    · exact hdrawn.language_of_one_more hdrawn' hold hnew

/-- An import on a line of its own, between two lines of text: the text stays one literal when the
code parts are put together, and the import is there. -/
theorem parse_insert_directive_import :
    ∃ unit', parse {} ("x\n" ++ "<%@ use os %>" ++ String.ofList LineBreak.crlf.text ++ "y") =
        .ok unit' ∧
      String.join unit'.codeParts = "x\ny" ∧ "os" ∈ unit'.imports.toList := by
  have hlit : IsLiteral "x\ny".toList := ⟨by decide, findText_eq_none_iff.mp (by decide)⟩
  have hone : IsLiteral ("x\n" ++ "y").toList ∨ IsBlock ("x\n" ++ "y").toList := .inl hlit
  obtain ⟨p, hparts, htext⟩ := split_singleton hone
  obtain ⟨unit, hunit, hcode, -⟩ := parse_of_split {} hparts fun q hq => by
    obtain rfl := List.mem_singleton.mp hq
    rw [Part.kind, htext]
    decide
  have hblock : IsBlock "<%@ use os %>".toList := ⟨"@ use os ".toList, by decide,
    (findText_eq_some_iff.mp (by decide : findText ['%', '>'] _ = some (_, []))).2⟩
  have hd : Configures "<%@ use os %>".toList ⟨"use", "os"⟩ :=
    ⟨hblock, (classify_eq_configuration_iff _).mp (by decide), by rw [Says]; decide, by decide⟩
  have hline : ∀ c ∈ "x\n".toList.getLast?, isBreakChar c = true := by
    intro c hc
    obtain rfl : '\n' = c := Option.some.inj hc
    decide
  obtain ⟨unit', hunit', hjoin, -, _, _, _, _, -, -, hgains⟩ :=
    parse_insert_directive (l := .crlf) hunit hline (.later (.later (.here 2 2))) hd
      (by decide)
  refine ⟨unit', hunit', ?_, ?_⟩
  · rw [hjoin, hcode, List.map_singleton, htext]
    decide
  · rw [hgains.imports, if_pos (by decide)]
    exact NameSet.mem_insert.mpr (.inl rfl)

end Stencil.Template
