import Mathlib.Data.List.TFAE
import Mathlib.Tactic.TFAE
import Stencil.Mock
import Stencil.Proofs.Lua.Expression
import Stencil.Proofs.Template.Insertion
set_option autoImplicit false

/-!
# Kinds of parts

Whether a part is a literal or a block is decided by the reader of a template at the token where the
part begins, and is not kept. Whoever takes the part up again tells from its text: by the opening
marker, or by both markers. All of them come to what the reader decided, and so do the program and
the reader on whether a block writes a value.

## Main definitions

* `Stencil.Template.Part.ReadAt` — the token where a part is read.
* `Stencil.Lua.Translation` — what becomes of a part in a program.

## Main results

* `Stencil.Template.existsUnique_readAt` — each part is read at one token, which opens a block just
  if the part is one.
* `Stencil.Lua.partStatement_eq_translation` — the statement for a part is that of its translation.
* `Stencil.Lua.readers_agree` — the reader, the handlers and the program agree on each part.
-/

namespace Stencil

open Text (utf8Length utf8Length_append)

namespace Template

/-! ## Tokens by their places -/

/-- No token from the scanner on lies before it. -/
theorem position_le_of_mem_tokensFrom {s : Scan} {t : Token} (ht : t ∈ tokensFrom s) :
    s.position ≤ t.position := by
  fun_induction tokensFrom s with
  | case1 s h => exact (List.mem_singleton.mp ht) ▸ le_refl _
  | case2 s h ih =>
    rcases List.mem_cons.mp ht with rfl | ht
    · exact le_refl _
    · exact le_trans (Nat.le_add_right _ _) (ih ht)

/-- **Each token lies before those behind it.** -/
theorem pairwise_position_tokensFrom (s : Scan) :
    (tokensFrom s).Pairwise fun t u => t.position < u.position := by
  fun_induction tokensFrom s with
  | case1 s h => exact List.pairwise_singleton _ _
  | case2 s h ih =>
    refine List.pairwise_cons.mpr ⟨fun t ht => ?_, ih⟩
    have hle := position_le_of_mem_tokensFrom ht
    have htext : 0 < utf8Length s.token.text := by
      obtain ⟨c, u, hu⟩ := List.exists_cons_of_ne_nil (Lexeme.text_ne_nil h)
      rw [Token.text, hu, Text.utf8Length_cons]
      exact Nat.add_pos_left c.utf8Size_pos _
    calc s.token.position < s.position + utf8Length s.token.text := Nat.lt_add_of_pos_right htext
      _ ≤ t.position := hle

/-- There is one token at a place. -/
theorem eq_of_position_eq {s : Scan} {t u : Token} (ht : t ∈ tokensFrom s)
    (hu : u ∈ tokensFrom s) (h : t.position = u.position) : t = u := by
  have hnodup : ((tokensFrom s).map Token.position).Nodup :=
    List.pairwise_map.mpr ((pairwise_position_tokensFrom s).imp Nat.ne_of_lt)
  exact List.inj_on_of_nodup_map hnodup ht hu h

/-- The scanner begins with the token in front of it. -/
theorem exists_tokensFrom_cons (s : Scan) : ∃ ts, tokensFrom s = s.token :: ts := by
  rw [tokensFrom]
  split
  · exact ⟨[], rfl⟩
  · exact ⟨_, rfl⟩

/-- Outside a block the first piece is an opening marker just if the text begins with one. -/
theorem nextLexeme_eq_blockStart_iff {s : List Char} :
    (nextLexeme .outside s).1 = .blockStart ↔ Mode.outside.marker <+: s := by
  constructor
  · intro h
    have htext := text_append_nextLexeme .outside s
    rw [h] at htext
    exact ⟨_, htext⟩
  · rintro ⟨r, rfl⟩
    rw [nextLexeme_marker]
    rfl

/-! ## Where parts are read -/

/-- **The token where a part is read:** from there on, the part is the first. A block is read at an
opening marker, a literal at any other token. -/
def Part.ReadAt (source : String) (p : Part) (t : Token) : Prop :=
  ∃ ts ps, t :: ts <:+ tokenize source ∧ Part.ofTokens (t :: ts) = .ok (p :: ps)

/-- The token where a part is read is one of the source. -/
theorem Part.ReadAt.mem {source : String} {p : Part} {t : Token} (h : p.ReadAt source t) :
    t ∈ tokenize source := by
  obtain ⟨ts, ps, hsuffix, -⟩ := h
  exact hsuffix.subset List.mem_cons_self

/-- A part begins where the token is at which it is read. -/
theorem Part.ReadAt.position_eq {source : String} {p : Part} {t : Token} (h : p.ReadAt source t) :
    p.position = t.position := by
  obtain ⟨ts, ps, -, hread⟩ := h
  rw [Part.ofTokens] at hread
  split at hread
  · cases hread
  · cases hread
  · split at hread
    · cases hread
    · dsimp only at hread
      split at hread
      · obtain ⟨parts, -, hp⟩ := Lua.exists_of_bind_eq_ok hread
        rw [← (List.cons.inj (Except.ok.inj hp)).1]
      · cases hread
      · cases hread
  · obtain ⟨parts, -, hp⟩ := Lua.exists_of_bind_eq_ok hread
    rw [← (List.cons.inj (Except.ok.inj hp)).1]

/-- **The tokens behind the first of canonical segments** are the last of all their tokens. -/
theorem tokensFrom_rawText_suffix {g : Segment} {gs : List Segment} (hc : Canonical (g :: gs))
    (position line : Nat) :
    tokensFrom ⟨.outside, position + utf8Length g.raw, line + lineBreaks g.raw, rawText gs⟩ <:+
      tokensFrom ⟨.outside, position, line, rawText (g :: gs)⟩ := by
  rcases hc.raw_cons with ⟨hlit, hdrop, -⟩ | ⟨body, hbody, o, rfl, ho⟩
  · have hraw : g.raw = g.text := by simp [Segment.raw, hdrop]
    obtain ⟨hclear, htail⟩ := hc.clear_literal hlit
    obtain ⟨ts, hts, -⟩ := tokensFrom_plain htail _ g.text position line rfl hclear
    rw [rawText_cons, hraw, hts]
    exact List.suffix_append _ _
  · have hraw : rawText (⟨blockText body, o.map LineBreak.text⟩ :: gs) = Mode.outside.marker ++
        (body ++ (Mode.inside.marker ++ ((o.map LineBreak.text).getD [] ++ rawText gs))) := by
      simp [Segment.raw, blockText]
    have hlength : utf8Length (Segment.mk (blockText body) (o.map LineBreak.text)).raw =
        2 + utf8Length body + 2 + utf8Length ((o.map LineBreak.text).getD []) := by
      simp only [Segment.raw, blockText, utf8Length_append]
      rfl
    have hclear : Clear .inside body
        (Mode.inside.marker ++ ((o.map LineBreak.text).getD [] ++ rawText gs)) := by
      refine clear_of_firstAt ?_
      rw [← List.append_assoc]
      exact (firstAt_append _).mpr hbody
    obtain ⟨ts, hts, -⟩ := tokensFrom_plain (head?_marker .inside _) _ body (position + 2) line
      rfl hclear
    -- Behind the closing marker stand the dropped break, if there is one, and the other segments.
    have hbehind (position line : Nat) :
        tokensFrom ⟨.outside, position + utf8Length ((o.map LineBreak.text).getD []),
            line + o.isSome.toNat, rawText gs⟩ <:+
          tokensFrom ⟨.outside, position, line, (o.map LineBreak.text).getD [] ++ rawText gs⟩ := by
      cases o with
      | none => exact List.suffix_refl _
      | some b =>
        have hb : breakAt (b.text ++ rawText gs) = some b := breakAt_of_droppedBehind ho
        have htokens := tokensFrom_break .outside position line hb
        exact htokens ▸ List.suffix_cons _ _
    rw [hraw, tokensFrom_blockStart, hts, tokensFrom_blockEnd, hlength, lineBreaks_raw_block,
      ← Nat.add_assoc, ← Nat.add_assoc, ← Nat.add_assoc, ← Nat.add_assoc]
    exact (hbehind _ _).trans ((List.suffix_cons _ _).trans
      ((List.suffix_append _ _).trans (List.suffix_cons _ _)))

/-- Canonical segments from a place on are read as parts, the first of them at the token there. -/
theorem ofTokens_tokensFrom_rawText {gs : List Segment} (hc : Canonical gs) (position line : Nat) :
    Part.ofTokens (tokensFrom ⟨.outside, position, line, rawText gs⟩) =
      assemble position line gs none := by
  rw [ofTokens_tokensFrom, cut_rawText hc]

/-- A block among canonical segments begins with the opening marker, and a literal does not. -/
theorem Canonical.isBlock_iff_marker_prefix {g : Segment} {gs : List Segment}
    (hc : Canonical (g :: gs)) : IsBlock g.text ↔ Mode.outside.marker <+: rawText (g :: gs) := by
  rcases hc.raw_cons with ⟨hlit, hdrop, -⟩ | ⟨body, hbody, o, rfl, -⟩
  · have hraw : rawText (g :: gs) = g.text ++ rawText gs := by simp [Segment.raw, hdrop]
    obtain ⟨hclear, -⟩ := hc.clear_literal hlit
    refine iff_of_false (fun hblock => hblock.not_isLiteral hlit) ?_
    rw [hraw]
    exact hclear [] g.text rfl hlit.1
  · refine iff_of_true ⟨body, rfl, hbody⟩ ?_
    exact ⟨body ++ Mode.inside.marker ++ (o.map LineBreak.text).getD [] ++ rawText gs, by
      simp [Segment.raw, blockText]⟩

/-- **Where the parts of canonical segments are read.** Each is read at one of their tokens, which
is an opening marker just if the part is a block.

**Proof sketch.** Induction on the segments. The first is read at the first token, and the tokens
behind it are the last of all tokens. -/
theorem exists_suffix_of_assemble {gs : List Segment} (hc : Canonical gs) {position line : Nat}
    {parts : List Part} (h : assemble position line gs none = .ok parts) :
    ∀ p ∈ parts, ∃ t ts ps,
      t :: ts <:+ tokensFrom ⟨.outside, position, line, rawText gs⟩ ∧
      Part.ofTokens (t :: ts) = .ok (p :: ps) ∧
      (t.lexeme = .blockStart ↔ IsBlock p.text.toList) := by
  induction gs generalizing position line parts with
  | nil =>
    obtain rfl : [] = parts := Except.ok.inj h
    simp
  | cons g gs ih =>
    have hread := (ofTokens_tokensFrom_rawText hc position line).trans h
    obtain ⟨rest, hrest, hparts⟩ := Lua.exists_of_map_eq_ok h
    subst hparts
    intro p hp
    rcases List.mem_cons.mp hp with rfl | hp
    · obtain ⟨ts, hts⟩ := exists_tokensFrom_cons ⟨.outside, position, line, rawText (g :: gs)⟩
      have htext : (g.at position line).text.toList = g.text := String.toList_ofList
      rw [hts] at hread ⊢
      refine ⟨_, ts, rest, List.suffix_refl _, hread, ?_⟩
      rw [htext, hc.isBlock_iff_marker_prefix]
      exact nextLexeme_eq_blockStart_iff
    · obtain ⟨t, ts, ps, hsuffix, hp⟩ := ih (canonical_cons.mp hc).2.2.2 hrest p hp
      exact ⟨t, ts, ps, hsuffix.trans (tokensFrom_rawText_suffix hc position line), hp⟩

/-- **Each part is read at one token,** which is an opening marker just if the part is a block. -/
theorem existsUnique_readAt {source : String} {parts : List Part} (h : split source = .ok parts)
    {p : Part} (hp : p ∈ parts) :
    ∃ t, (t.lexeme = .blockStart ↔ IsBlock p.text.toList) ∧ ∀ u, p.ReadAt source u ↔ u = t := by
  obtain ⟨hc, hsource⟩ := canonical_of_split h
  have hassemble : assemble 0 1 (parts.map Part.segment) none = .ok parts := by
    rw [split_eq_assemble, hsource, cut_rawText hc] at h
    exact h
  have htokens : tokenize source =
      tokensFrom ⟨.outside, 0, 1, rawText (parts.map Part.segment)⟩ := by
    rw [tokenize, Scan.start, hsource]
  obtain ⟨t, ts, ps, hsuffix, hread, hkind⟩ := exists_suffix_of_assemble hc hassemble p hp
  rw [← htokens] at hsuffix
  have ht : p.ReadAt source t := ⟨ts, ps, hsuffix, hread⟩
  refine ⟨t, hkind, fun u => ⟨fun hu => ?_, fun hu => hu ▸ ht⟩⟩
  exact eq_of_position_eq hu.mem ht.mem (hu.position_eq.symm.trans ht.position_eq)

end Template

namespace Lua

open Template (IsLiteral IsBlock Part rawText blockText breakAt)

/-! ## What becomes of a part -/

/-- **What becomes of a part in a program.** -/
inductive Translation where
  /-- A text that is written as it is. -/
  | literal (text : String)
  /-- Content that is asked for by its name and written. -/
  | inclusion (name : String)
  /-- An expression whose value is written. -/
  | expression (text : List Char)
  /-- Other code, which stands in the program as it is. -/
  | code (text : List Char)
  deriving DecidableEq, Repr

/-- The statement of a translation. -/
def Translation.line : Translation → String
  | literal text => writeStatement (quote text)
  | inclusion name => writeStatement ("codet.include(" ++ quote name ++ ")")
  | expression text => writeStatement (String.ofList (Text.trim text))
  | code text => "  " ++ String.ofList (Text.trim text)

/-- What becomes of the inside of a block that is no directive. -/
def Translation.ofInside : List Char → Translation
  | '=' :: text => .expression text
  | text => .code text

/-- **What becomes of a part.** An empty part gives nothing; a block that is a configuration
directive, or whose markers overlap, is an error. -/
def translation (part : String) : Except Error (Option Translation) :=
  let text := part.toList
  if isBlock text then
    match Template.classify text with
    | some .inclusion =>
      .ok (some (.inclusion (String.ofList ((Template.includeName text).getD []))))
    | some .configuration =>
      .error (.invalidArgument "code_parts"
        s!"configuration directive left in code parts: {part}")
    | none =>
      if text.length < 4 then .error .overlappingMarkers
      else .ok (some (.ofInside (blockInside text)))
  else if text.isEmpty then .ok none
  else .ok (some (.literal part))

/-- An inside without an equals sign in front is code. -/
theorem Translation.ofInside_code {text : List Char} (h : ∀ e, text ≠ '=' :: e) :
    Translation.ofInside text = .code text := by
  unfold Translation.ofInside
  split
  · exact absurd rfl (h _)
  · rfl

/-- The inside of a block is an expression just if it begins with an equals sign. -/
theorem Translation.ofInside_eq_expression_iff {text : List Char} :
    (∃ e, Translation.ofInside text = .expression e) ↔ text.head? = some '=' := by
  by_cases h : ∃ e, text = '=' :: e
  · obtain ⟨e, rfl⟩ := h
    exact iff_of_true ⟨e, rfl⟩ rfl
  · rw [Translation.ofInside_code (not_exists.mp h)]
    exact iff_of_false (by simp) fun hhead => h (List.head?_eq_some_iff.mp hhead)

/-- **The statement for a part is that of its translation.** -/
theorem partStatement_eq_translation (part : String) :
    partStatement part = (translation part).map (Option.map Translation.line) := by
  simp only [partStatement, translation]
  by_cases hblock : isBlock part.toList
  · simp only [if_pos hblock]
    rcases Template.classify part.toList with _ | _ | _
    · by_cases hlength : part.toList.length < 4
      · rw [if_pos hlength, if_pos hlength]
        rfl
      · rw [if_neg hlength, if_neg hlength]
        generalize blockInside part.toList = inside
        by_cases hinside : ∃ e, inside = '=' :: e
        · obtain ⟨e, rfl⟩ := hinside
          rfl
        · rw [Translation.ofInside_code (not_exists.mp hinside)]
          dsimp only
          split
          · exact absurd ⟨_, rfl⟩ hinside
          · rfl
    · rfl
    · rfl
  · simp only [if_neg hblock]
    split <;> rfl

/-- A literal is translated to a literal. -/
theorem translation_literal {part : String} (h : IsLiteral part.toList) :
    translation part = .ok (some (.literal part)) := by
  have hfront : ['<', '%'].isPrefixOf part.toList = false := h.isBlockText
  have hisBlock : isBlock part.toList = false := by
    rw [isBlock, hfront, Bool.false_and]
  have hempty : part.toList.isEmpty = false := List.isEmpty_eq_false_iff.mpr h.1
  simp only [translation, hisBlock, hempty]
  rfl

/-- What a block is translated to. -/
theorem translation_block {part : String} {body : List Char} (hblock : IsBlock part.toList)
    (hbody : part.toList = blockText body) :
    translation part = match Template.classify part.toList with
      | some .inclusion =>
        .ok (some (.inclusion (String.ofList ((Template.includeName part.toList).getD []))))
      | some .configuration =>
        .error (.invalidArgument "code_parts"
          s!"configuration directive left in code parts: {part}")
      | none => .ok (some (.ofInside body)) := by
  have hinside : blockInside part.toList = body := by rw [hbody, blockInside_blockText]
  simp only [translation, isBlock_eq_true hblock, if_true, hinside,
    if_neg (IsBlock.four_le_length hblock)]

/-- **A block is an expression just if its inside begins with an equals sign.** -/
theorem translation_eq_expression_iff {part : String} {body : List Char}
    (hblock : IsBlock part.toList) (hbody : part.toList = blockText body) :
    (∃ e, translation part = .ok (some (.expression e))) ↔ body.head? = some '=' := by
  rw [translation_block hblock hbody]
  constructor
  · rintro ⟨e, he⟩
    refine Translation.ofInside_eq_expression_iff.mp ⟨e, ?_⟩
    split at he <;> simp_all
  · intro hhead
    obtain ⟨e, rfl⟩ := List.head?_eq_some_iff.mp hhead
    have hclass : Template.classify part.toList = none := by
      rw [hbody]
      simp [Template.classify, Template.directiveStart, blockText, Template.Mode.marker,
        List.isPrefixOf]
    rw [hclass]
    exact ⟨e, rfl⟩

/-! ## Agreement -/

/-- Each code part has a translation. -/
theorem exists_translation {config : Template.ParserConfig} {source : String}
    {unit : Template.CompilationUnit} (h : Template.parse config source = .ok unit) {part : String}
    (hpart : part ∈ unit.codeParts) : ∃ t, translation part = .ok (some t) := by
  rcases Template.isLiteral_or_isBlock_of_mem_codeParts h hpart with hlit | hblock
  · exact ⟨_, translation_literal hlit⟩
  · obtain ⟨body, hbody, -⟩ := id hblock
    have hclass := Template.classify_ne_of_mem_codeParts h hpart
    rw [translation_block hblock hbody]
    split
    · exact ⟨_, rfl⟩
    · exact absurd ‹_› hclass
    · exact ⟨_, rfl⟩

/-- The tests on the text of a part of a template agree. -/
theorem isBlock_iff_isBlockText {part : String}
    (h : IsLiteral part.toList ∨ IsBlock part.toList) :
    (IsBlock part.toList ↔ Part.isBlockText part = true) ∧
      (IsBlock part.toList ↔ isBlock part.toList = true) := by
  rcases h with hlit | hblock
  · have hnot : ¬ IsBlock part.toList := fun hblock => hblock.not_isLiteral hlit
    have hfront : ['<', '%'].isPrefixOf part.toList = false := hlit.isBlockText
    refine ⟨iff_of_false hnot ?_, iff_of_false hnot ?_⟩
    · rw [hlit.isBlockText]
      exact Bool.false_ne_true
    · rw [isBlock, hfront]
      exact Bool.false_ne_true
  · exact ⟨iff_of_true hblock hblock.isBlockText, iff_of_true hblock (isBlock_eq_true hblock)⟩

/-- **The reader, the handlers and the program agree on each part.** Each part of a template that is
parsed is read at one token, and the following say the same of it: that token is an opening marker,
the part is taken for a block, it has the opening marker in front, it has both its markers. Each
code part has a statement, and a part with both its markers has room for them, with its inside in
between. Where a line break follows a block, it is kept just if the block becomes an expression, and
no other code and no include. -/
theorem readers_agree {config : Template.ParserConfig} {source : String}
    {unit : Template.CompilationUnit} (h : Template.parse config source = .ok unit) :
    (∀ p ∈ unit.parts, ∃ t, (∀ u, p.ReadAt source u ↔ u = t) ∧
      List.TFAE [t.lexeme = .blockStart, p.isCode = true, Part.isBlockText p.text = true,
        isBlock p.text.toList = true]) ∧
    (∀ part ∈ unit.codeParts, (∃ t, translation part = .ok (some t) ∧
        partStatement part = .ok (some t.line)) ∧
      (isBlock part.toList = true → 4 ≤ part.toList.length ∧
        part.toList = "<%".toList ++ blockInside part.toList ++ "%>".toList)) ∧
    ∀ before p after, unit.parts = before ++ p :: after → p.isCode = true →
      ∃ behind, source.toList = rawText (before.map Part.segment) ++ p.text.toList ++ behind ∧
        ((∃ b, breakAt behind = some b) →
          (p.skippedBreak = none ↔ ∃ e, translation p.text = .ok (some (.expression e)))) := by
  obtain ⟨hsplit, -⟩ := Template.drawnFrom_of_parse h
  obtain ⟨hc, hsource⟩ := Template.canonical_of_split hsplit
  have hkinds (p : Part) (hp : p ∈ unit.parts) : IsLiteral p.text.toList ∨ IsBlock p.text.toList :=
    hc.kinds p.segment (List.mem_map_of_mem hp)
  refine ⟨fun p hp => ?_, fun part hpart => ⟨?_, fun hisBlock => ?_⟩, ?_⟩
  · obtain ⟨t, ht, hunique⟩ := Template.existsUnique_readAt hsplit hp
    obtain ⟨hfront, hmarkers⟩ := isBlock_iff_isBlockText (hkinds p hp)
    refine ⟨t, hunique, ?_⟩
    have hcode : p.isCode = true ↔ Part.isBlockText p.text = true := Iff.rfl
    tfae_have 1 ↔ 3 := ht.trans hfront
    tfae_have 2 ↔ 3 := hcode
    tfae_have 3 ↔ 4 := hfront.symm.trans hmarkers
    tfae_finish
  · obtain ⟨t, ht⟩ := exists_translation h hpart
    exact ⟨t, ht, by rw [partStatement_eq_translation, ht]; rfl⟩
  · have hkind := Template.isLiteral_or_isBlock_of_mem_codeParts h hpart
    have hblock := (isBlock_iff_isBlockText hkind).2.mpr hisBlock
    obtain ⟨body, hbody, -⟩ := id hblock
    refine ⟨Nat.le_of_not_lt (IsBlock.four_le_length hblock), ?_⟩
    rw [hbody, blockInside_blockText]
    rfl
  · intro before p after hparts hcode
    have hp : p ∈ unit.parts := by simp [hparts]
    have hblock := (isBlock_iff_isBlockText (hkinds p hp)).1.mpr hcode
    obtain ⟨body, hbody, -⟩ := id hblock
    rw [hparts, List.map_append, List.map_cons] at hc hsource
    refine ⟨p.segment.dropped.getD [] ++ rawText (after.map Part.segment), ?_, ?_⟩
    · rw [hsource, Template.rawText_append, Template.rawText_cons, Template.Segment.raw,
        List.append_assoc, List.append_assoc]
      rfl
    · rintro ⟨b, hb⟩
      have hdropped : p.segment.dropped = _ := hc.breaks _ p.segment _ rfl
      have htext : p.segment.text = blockText body := hbody
      rw [htext, Template.expectedBreak_blockText, Template.droppedBehind, hb] at hdropped
      rw [translation_eq_expression_iff hblock hbody]
      have hnone : p.segment.dropped = none ↔ p.skippedBreak = none := Option.map_eq_none_iff
      rw [← hnone, hdropped]
      by_cases hhead : body.head? = some '='
      · simp [hhead]
      · simp [hhead]

/-- A block of code, a value block and a line: the two blocks have both their markers, and the
break behind the value block stays. -/
theorem readers_agree_two_blocks :
    ∃ unit p q r, Template.parse {} "<% f() %>\n<%=x%>\n" = .ok unit ∧ unit.parts = [p, q, r] ∧
      isBlock p.text.toList = true ∧ isBlock q.text.toList = true ∧ ¬ isBlock r.text.toList = true ∧
      p.skippedBreak ≠ none ∧ q.skippedBreak = none := by
  let p : Part := ⟨"<% f() %>", some "\n", 0, 1⟩
  let q : Part := ⟨"<%=x%>", none, 10, 2⟩
  let r : Part := ⟨"\n", none, 16, 2⟩
  have hsplit : Template.split "<% f() %>\n<%=x%>\n" = .ok [p, q, r] := by cbv
  obtain ⟨unit, hunit, -⟩ := Template.parse_of_split {} hsplit (by decide)
  have hparts : unit.parts = [p, q, r] :=
    Except.ok.inj ((Template.drawnFrom_of_parse hunit).1.symm.trans hsplit)
  obtain ⟨hread, -, hbreak⟩ := readers_agree hunit
  obtain ⟨_, -, hp⟩ := hread p (by simp [hparts])
  obtain ⟨_, -, hq⟩ := hread q (by simp [hparts])
  obtain ⟨_, -, hr⟩ := hread r (by simp [hparts])
  obtain ⟨behind, hsource, hkeep⟩ := hbreak [] p [q, r] hparts (by decide)
  obtain ⟨behind', hsource', hkeep'⟩ := hbreak [p] q [r] hparts (by decide)
  refine ⟨unit, p, q, r, hunit, hparts, (hp.out 1 3).mp (by decide), (hq.out 1 3).mp (by decide),
    mt (hr.out 1 3).mpr (by decide), ?_, ?_⟩
  · have hbehind : behind = "\n<%=x%>\n".toList :=
      List.append_cancel_left (hsource.symm.trans (by decide))
    have htranslation : translation p.text = .ok (some (.code " f() ".toList)) := by decide
    rw [ne_eq, hkeep ⟨.lf, by rw [hbehind]; decide⟩, htranslation]
    simp
  · have hbehind : behind' = ['\n'] :=
      List.append_cancel_left (hsource'.symm.trans (by decide))
    have htranslation : translation q.text = .ok (some (.expression ['x'])) := by decide
    rw [hkeep' ⟨.lf, by rw [hbehind]; decide⟩, htranslation]
    exact ⟨_, rfl⟩

/-- Overlapping markers pass the test for a block, but no part of a template has them. -/
example : isBlock "<%>".toList = true ∧ partStatement "<%>" = .error .overlappingMarkers := by
  decide

end Lua

end Stencil
