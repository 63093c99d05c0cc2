import Stencil.Proofs.Template.Declaration
set_option autoImplicit false

/-!
# Code parts

The code parts of a parsed template are the texts of its parts in order, without those of the
configuration directives. Each is a literal or a block of the grammar.

## Main results

* `Stencil.Template.codeParts_of_parse` — the code parts of a source, from its segments.
* `Stencil.Template.isLiteral_or_isBlock_of_mem_codeParts` — the kinds of code parts.
* `Stencil.Template.exists_includeName` — an include has a name.
-/

namespace Stencil.Template

open Stencil.Text

/-! ## From parts to code parts -/

/-- **A source that is parsed** is split into the parts of its unit, which has what they declare. -/
theorem drawnFrom_of_parse {config : ParserConfig} {source : String} {unit : CompilationUnit}
    (h : parse config source = .ok unit) :
    split source = .ok unit.parts ∧ DrawnFrom config unit.parts unit := by
  unfold parse at h
  cases hsplit : split source with
  | error e =>
    rw [hsplit] at h
    cases h
  | ok parts =>
    rw [hsplit] at h
    have hdrawn := CompilationUnit.ofParts_eq_ok_iff.mp h
    obtain rfl : unit.parts = parts := hdrawn.parts
    exact ⟨rfl, hdrawn⟩

/-- The code parts are the texts of the parts that are no configuration directives. -/
theorem DrawnFrom.codeParts_eq {config : ParserConfig} {parts : List Part}
    {unit : CompilationUnit} (h : DrawnFrom config parts unit) :
    unit.codeParts = (parts.filter fun p => p.kind ≠ some .configuration).map Part.text := by
  rw [h.codeParts]
  simp only [ne_eq, kind_eq_configuration_iff]

/-- **The code parts of a source** are the texts of its segments that are not configuration
directives, in order. -/
theorem codeParts_of_parse {config : ParserConfig} {source : String} {unit : CompilationUnit}
    (h : parse config source = .ok unit) :
    ∃ gs, Canonical gs ∧ source.toList = rawText gs ∧
      unit.codeParts.map String.toList =
        (gs.map Segment.text).filter fun t => classify t ≠ some .configuration := by
  obtain ⟨hsplit, hdrawn⟩ := drawnFrom_of_parse h
  obtain ⟨hc, hsource⟩ := canonical_of_split hsplit
  refine ⟨_, hc, hsource, ?_⟩
  rw [hdrawn.codeParts_eq, List.map_map, List.map_map, List.filter_map]
  rfl

/-- A source without configuration directives is parsed, and its parts are its code parts. The
settings are those of the configuration. -/
theorem parse_of_split (config : ParserConfig) {source : String} {parts : List Part}
    (hsplit : split source = .ok parts) (h : ∀ p ∈ parts, p.kind ≠ some .configuration) :
    ∃ unit, parse config source = .ok unit ∧ unit.codeParts = parts.map Part.text ∧
      unit.language = config.defaultLanguage ∧ unit.imports = .ofList config.defaultImports ∧
      unit.references = .empty := by
  have hkind : ∀ p ∈ parts, ¬ IsConfiguration p.text.toList :=
    fun p hp => mt (kind_eq_configuration_iff p).mpr (h p hp)
  have hnone : (parts.filter fun p => IsConfiguration p.text.toList) = [] :=
    List.filter_eq_nil_iff.mpr fun p hp => by simpa using hkind p hp
  have hdeclares :
      List.Forall₂ Declares (parts.filter fun p => IsConfiguration p.text.toList) [] := by
    rw [hnone]
    exact .nil
  have hunit := parse_eq_extend config hsplit hdeclares (by simp)
  refine ⟨_, hunit, ?_, rfl, rfl, rfl⟩
  show [] ++ (parts.filter fun p => ¬ IsConfiguration p.text.toList).map Part.text = _
  rw [List.nil_append, List.filter_eq_self.mpr fun p hp => by simpa using hkind p hp]

/-- **A code part is a literal or a block.** -/
theorem isLiteral_or_isBlock_of_mem_codeParts {config : ParserConfig} {source : String}
    {unit : CompilationUnit} (h : parse config source = .ok unit) {part : String}
    (hpart : part ∈ unit.codeParts) : IsLiteral part.toList ∨ IsBlock part.toList := by
  obtain ⟨gs, hc, -, hcode⟩ := codeParts_of_parse h
  have hmem : part.toList ∈ unit.codeParts.map String.toList := List.mem_map_of_mem hpart
  rw [hcode] at hmem
  obtain ⟨g, hg, heq⟩ := List.mem_map.mp (List.mem_filter.mp hmem).1
  rw [← heq]
  exact hc.kinds g hg

/-- A code part is no configuration directive. -/
theorem classify_ne_of_mem_codeParts {config : ParserConfig} {source : String}
    {unit : CompilationUnit} (h : parse config source = .ok unit) {part : String}
    (hpart : part ∈ unit.codeParts) : classify part.toList ≠ some .configuration := by
  obtain ⟨gs, -, -, hcode⟩ := codeParts_of_parse h
  have hmem : part.toList ∈ unit.codeParts.map String.toList := List.mem_map_of_mem hpart
  rw [hcode] at hmem
  exact of_decide_eq_true (List.mem_filter.mp hmem).2

/-- A segment is not empty. -/
theorem Canonical.length_le {gs : List Segment} (hc : Canonical gs) :
    gs.length ≤ (rawText gs).length := by
  induction gs with
  | nil => exact Nat.zero_le _
  | cons g gs ih =>
    obtain ⟨hkind, -, -, hc⟩ := canonical_cons.mp hc
    have hg : 1 ≤ g.text.length := by
      rcases hkind with hlit | ⟨body, hbody, -⟩
      · exact List.length_pos_iff.mpr hlit.1
      · rw [hbody]
        simp [blockText, Mode.marker]
    have hgs := ih hc
    rw [rawText_cons, Segment.raw, List.length_append, List.length_append, List.length_cons]
    omega

/-- There are no more code parts than characters. -/
theorem length_codeParts_le {config : ParserConfig} {source : String} {unit : CompilationUnit}
    (h : parse config source = .ok unit) : unit.codeParts.length ≤ source.length := by
  obtain ⟨gs, hc, hsource, hcode⟩ := codeParts_of_parse h
  calc unit.codeParts.length
    _ = (unit.codeParts.map String.toList).length := (List.length_map _).symm
    _ ≤ (gs.map Segment.text).length := by
      rw [hcode]
      exact List.length_filter_le _ _
    _ = gs.length := List.length_map _
    _ ≤ source.toList.length := by
      rw [hsource]
      exact hc.length_le
    _ = source.length := String.length_toList

/-! ## Blocks and literals told apart -/

/-- No block begins in front of a literal. -/
theorem IsLiteral.isBlockText {part : String} (h : IsLiteral part.toList) :
    Part.isBlockText part = false := by
  refine Bool.eq_false_iff.mpr fun hprefix => h.2 ?_
  exact (List.isPrefixOf_iff_prefix.mp hprefix).isInfix

/-- A block begins like one. -/
theorem IsBlock.isBlockText {part : String} (h : IsBlock part.toList) :
    Part.isBlockText part = true := by
  obtain ⟨body, hpart, -⟩ := h
  refine List.isPrefixOf_iff_prefix.mpr ?_
  rw [hpart, blockText, List.append_assoc]
  exact List.prefix_append _ _

/-- A block ends with the closing marker. -/
theorem IsBlock.isSuffixOf {t : List Char} (h : IsBlock t) : blockEndText.isSuffixOf t = true := by
  obtain ⟨body, rfl, -⟩ := h
  exact List.isSuffixOf_iff_suffix.mpr (List.suffix_append _ _)

/-! ## The name of an include -/

/-- A character that is a letter of ASCII up to case is one byte. -/
theorem utf8Size_of_toLower {c : Char} (h : c.toLower.utf8Size = 1) : c.utf8Size = 1 := by
  unfold Char.toLower at h
  split at h
  · rename_i hupper
    have hle : c.val ≤ 0x7F := UInt32.le_trans hupper.2 (by decide)
    exact if_pos hle
  · exact h

/-- A text that is dropped byte by byte, when each of its characters is one. -/
theorem dropBytes_of_length {u : List Char} (hu : ∀ c ∈ u, c.utf8Size = 1) (t : List Char) :
    dropBytes u.length (u ++ t) = some t := by
  have hlength : utf8Length u = u.length := by
    induction u with
    | nil => rfl
    | cons c u ih =>
      rw [List.forall_mem_cons] at hu
      rw [utf8Length_cons, hu.1, ih hu.2, List.length_cons, Nat.add_comm]
  rw [← hlength, dropBytes_append]

/-- **An include has a name,** even if it is blank. -/
theorem exists_includeName {text : List Char} (h : classify text = some .inclusion) :
    ∃ name, includeName text = some name := by
  unfold classify at h
  by_cases hstart : directiveStart.isPrefixOf text
  · rw [if_pos hstart] at h
    by_cases hword : eqIgnoringCase ((interior text).take includeWord.length) includeWord
    · have hlength := length_eq_of_eqIgnoringCase hword
      have hone : ∀ c ∈ (interior text).take includeWord.length, c.utf8Size = 1 := by
        intro c hc
        have heq :
            lowerAscii ((interior text).take includeWord.length) = lowerAscii includeWord := by
          simpa [eqIgnoringCase] using hword
        have hmem : c.toLower ∈ lowerAscii includeWord := by
          rw [← heq]
          exact List.mem_map_of_mem hc
        have hall : (lowerAscii includeWord).all (·.utf8Size == 1) = true := by decide
        exact utf8Size_of_toLower (beq_iff_eq.mp (List.all_eq_true.mp hall _ hmem))
      have hdrop := dropBytes_of_length hone ((interior text).drop includeWord.length)
      rw [hlength, List.take_append_drop] at hdrop
      refine ⟨unquote (trim ((interior text).drop includeWord.length)), ?_⟩
      rw [includeName, hdrop, Option.map_some]
    · rw [if_neg hword] at h
      cases h
  · rw [if_neg hstart] at h
    cases h

end Stencil.Template
