import Stencil.Proofs.Agreement
import Stencil.Proofs.Lua.Expression
set_option autoImplicit false

/-!
# Includes by name

A directive with a name in quotes asks for that name when the template is rendered: the word in
front of it may have any letter case, and the name itself may hold whatever does not close the
block, quotes, blanks and line breaks with it.

## Main definitions

* `Stencil.Template.inclusionText` — the directive for a name.
* `Stencil.HandlerInput.Takes` — an input whose program takes a state.
* `Stencil.includeOutcome` — what a template comes to that is one include.

## Main results

* `Stencil.Template.parse_inclusionText` — the directive is the only part of its source.
* `Stencil.Template.includeName_inclusionText` — the name of the directive is the name in it.
* `Stencil.Handler.trial_inclusion` — both handlers ask for that name.
-/

namespace Stencil

open Text (eqIgnoringCase lowerAscii isBlank trim trim_of_ends dropBytes)

namespace Template

/-! ## The directive for a name -/

/-- **The word of an include,** in any letter case. -/
def IsIncludeWord (word : List Char) : Prop := eqIgnoringCase word "include".toList = true

/-- **The two quotes.** -/
def IsQuote (q : Char) : Prop := q = '"' ∨ q = '\''

/-- A name in quotes. -/
def quotedName (q : Char) (name : List Char) : List Char := q :: (name ++ [q])

/-- What the directive for a name says. -/
def inclusionWords (word : List Char) (q : Char) (name : List Char) : List Char :=
  word ++ [' '] ++ quotedName q name

/-- **The directive for a name,** with a word in front of it and quotes around it. -/
def inclusionText (word : String) (q : Char) (name : String) : String :=
  "<%@ " ++ word ++ " " ++ q.toString ++ name ++ q.toString ++ " %>"

section Inclusion

variable {word name : List Char} {q : Char}

/-- The markers of the directive, and what it says between blanks. -/
theorem toList_inclusionText (word : String) (q : Char) (name : String) :
    (inclusionText word q name).toList =
      blockText ('@' :: ([' '] ++ inclusionWords word.toList q name.toList ++ [' '])) := by
  simp [inclusionText, inclusionWords, quotedName, blockText, Mode.marker, Char.toString]

/-- In small letters the word is the one of an include. -/
theorem IsIncludeWord.lowerAscii_eq (h : IsIncludeWord word) :
    lowerAscii word = "include".toList := by
  have hsmall : lowerAscii "include".toList = "include".toList := by decide
  exact (beq_iff_eq.mp h).trans hsmall

/-- Each character of the word is a letter of it. -/
theorem IsIncludeWord.toLower_mem (h : IsIncludeWord word) {c : Char} (hc : c ∈ word) :
    c.toLower ∈ "include".toList := by
  rw [← h.lowerAscii_eq]
  exact List.mem_map_of_mem hc

/-- What holds of no letter of the word in small letters holds of none of the word. -/
theorem IsIncludeWord.not_mem (h : IsIncludeWord word) {c : Char}
    (hc : c.toLower ∉ "include".toList) : c ∉ word :=
  fun hmem => hc (h.toLower_mem hmem)

/-! ## The closing marker -/

/-- A pair is not found where its first character is not. -/
theorem isInfix_of_isInfix_append {a b : Char} {u s : List Char} (hu : a ∉ u)
    (h : [a, b] <:+: u ++ s) : [a, b] <:+: s := by
  induction u with
  | nil => exact h
  | cons c u ih =>
    rw [List.mem_cons, not_or] at hu
    rcases List.infix_cons_iff.mp h with hp | h
    · exact absurd (List.cons_prefix_cons.mp hp).1 hu.1
    · exact ih hu.2 h

/-- Nor is it found at the end where its second character is not. -/
theorem isInfix_of_concat_isInfix {a b : Char} {u s : List Char} (hu : b ∉ u)
    (h : [a, b] <:+: s ++ u) : [a, b] <:+: s := by
  rw [← List.reverse_infix] at h ⊢
  rw [List.reverse_append] at h
  exact isInfix_of_isInfix_append (by simpa using hu) h

/-- **The closing marker is nowhere in the directive** if it is not in the name. -/
theorem not_infix_inclusionWords (hword : IsIncludeWord word) (hq : IsQuote q)
    (hname : ¬ Mode.inside.marker <:+: name) :
    ¬ Mode.inside.marker <:+: '@' :: ([' '] ++ inclusionWords word q name ++ [' ']) := by
  have hpercent : '%' ∉ word := hword.not_mem (by decide)
  have hparts : '@' :: ([' '] ++ inclusionWords word q name ++ [' ']) =
      ('@' :: ' ' :: (word ++ [' ', q])) ++ (name ++ [q, ' ']) := by
    simp [inclusionWords, quotedName]
  rw [hparts]
  intro h
  refine hname (isInfix_of_concat_isInfix ?_ (isInfix_of_isInfix_append ?_ h))
  · rcases hq with rfl | rfl <;> decide
  · rcases hq with rfl | rfl <;> simp [hpercent]

/-- **The directive is a block.** -/
theorem isBlock_inclusionText {word name : String} (hword : IsIncludeWord word.toList)
    (hq : IsQuote q) (hname : ¬ Mode.inside.marker <:+: name.toList) :
    IsBlock (inclusionText word q name).toList := by
  rw [toList_inclusionText]
  exact isBlock_blockText (not_infix_inclusionWords hword hq hname)

/-! ## What the directive says -/

/-- A quote is no blank. -/
theorem IsQuote.isBlank_eq (hq : IsQuote q) : isBlank q = false := by
  rcases hq with rfl | rfl <;> decide

/-- An end that is there can be dropped. -/
theorem dropEnd?_append (pattern s : List Char) : dropEnd? pattern (s ++ pattern) = some s := by
  have hsuffix : pattern.isSuffixOf (s ++ pattern) = true :=
    List.isSuffixOf_iff_suffix.mpr (List.suffix_append s pattern)
  simp [dropEnd?, hsuffix]

/-- The quotes around a name are the ends of it. -/
theorem getLast?_quotedName (q : Char) (name : List Char) :
    (quotedName q name).getLast? = some q := by
  rw [quotedName, ← List.cons_append, List.getLast?_concat]

/-- A name in quotes is not trimmed. -/
theorem trim_quotedName (hq : IsQuote q) (name : List Char) :
    trim (quotedName q name) = quotedName q name := by
  have h := trim_of_ends (u := []) (s := quotedName q name) (v := []) (by simp)
    (by simpa [quotedName] using hq.isBlank_eq)
    (by simpa [getLast?_quotedName] using hq.isBlank_eq) (by simp)
  simpa using h

/-- **The quotes are taken off,** and what is between them stays as it is. -/
theorem unquote_quotedName (hq : IsQuote q) (name : List Char) :
    unquote (quotedName q name) = name := by
  have hself : unquoteWith q (quotedName q name) = some name := by
    rw [quotedName, unquoteWith, if_pos rfl, dropEnd?_append]
  rcases hq with rfl | rfl
  · rw [unquote, hself]
    rfl
  · have hother : unquoteWith '"' (quotedName '\'' name) = none := by
      rw [quotedName, unquoteWith, if_neg (by decide)]
    rw [unquote, hother, hself]
    rfl

/-- A blank is no capital letter. -/
theorem toLower_of_isBlank {c : Char} (h : isBlank c = true) : c.toLower = c := by
  unfold Char.toLower
  split
  · rename_i hcapital
    have hlow : 65 ≤ c.toNat := UInt32.le_iff_toNat_le.mp hcapital.1
    have hhigh : c.toNat ≤ 90 := UInt32.le_iff_toNat_le.mp hcapital.2
    simp [isBlank] at h
    omega
  · rfl

/-- The word holds no blank. -/
theorem IsIncludeWord.isBlank_eq (h : IsIncludeWord word) {c : Char} (hc : c ∈ word) :
    isBlank c = false := by
  have hletters : "include".toList.all (!isBlank ·) = true := by decide
  have hmem := h.toLower_mem hc
  refine Bool.eq_false_iff.mpr fun hblank => ?_
  rw [toLower_of_isBlank hblank] at hmem
  simpa [hblank] using List.all_eq_true.mp hletters c hmem

/-- **What the directive says** is the word and the name in quotes. -/
theorem interior_inclusionText {word : String} (hword : IsIncludeWord word.toList) (hq : IsQuote q)
    (name : String) :
    interior (inclusionText word q name).toList =
      inclusionWords word.toList q name.toList := by
  let words := inclusionWords word.toList q name.toList
  have htext : (inclusionText word q name).toList =
      directiveStart ++ (([' '] ++ words ++ [' ']) ++ blockEndText) := by
    rw [toList_inclusionText]
    simp [blockText, Mode.marker, directiveStart, blockEndText, words]
  have hstart : directiveStart.isPrefixOf (inclusionText word q name).toList = true := by
    rw [htext]
    exact List.isPrefixOf_iff_prefix.mpr (List.prefix_append _ _)
  have hhead : ∀ c ∈ words.head?, isBlank c = false := by
    intro c hc
    cases hw : word.toList with
    | nil =>
      rw [hw] at hword
      exact absurd hword (by unfold IsIncludeWord; decide)
    | cons d w =>
      obtain rfl : d = c := by simpa [words, inclusionWords, hw] using hc
      exact hword.isBlank_eq (by simp [hw])
  have hlast : ∀ c ∈ words.getLast?, isBlank c = false := by
    intro c hc
    have hend : words.getLast? = some q := by
      simp [words, inclusionWords, List.getLast?_append, List.getLast?_cons, getLast?_quotedName]
    obtain rfl : q = c := by simpa [hend] using hc
    exact hq.isBlank_eq
  rw [interior, if_pos hstart, htext, List.drop_left]
  dsimp only
  rw [dropEnd?_append, Option.getD_some]
  have hblank : ∀ c ∈ [' '], isBlank c = true := List.forall_mem_singleton.mpr rfl
  exact trim_of_ends hblank hhead hlast hblank

/-- The word and the blank behind it are the word of an include. -/
theorem IsIncludeWord.eqIgnoringCase_concat (h : IsIncludeWord word) :
    eqIgnoringCase (word ++ [' ']) includeWord = true := by
  have hsmall : lowerAscii includeWord = "include".toList ++ [' '] := by decide
  rw [eqIgnoringCase, hsmall, beq_iff_eq, lowerAscii, List.map_append]
  exact congrArg (· ++ [' ']) h.lowerAscii_eq

/-- Up to the name, what the directive says is the word of an include. -/
theorem IsIncludeWord.length_concat (h : IsIncludeWord word) :
    (word ++ [' ']).length = includeWord.length :=
  Text.length_eq_of_eqIgnoringCase h.eqIgnoringCase_concat

/-- **The directive is an include.** -/
theorem classify_inclusionText {word : String} (hword : IsIncludeWord word.toList) (hq : IsQuote q)
    (name : String) : classify (inclusionText word q name).toList = some .inclusion := by
  have hstart : directiveStart.isPrefixOf (inclusionText word q name).toList = true := by
    rw [toList_inclusionText]
    simp [blockText, Mode.marker, directiveStart]
  have hfront : (inclusionWords word.toList q name.toList).take includeWord.length =
      word.toList ++ [' '] := by
    rw [← hword.length_concat, inclusionWords, List.take_left]
  rw [classify, if_pos hstart, interior_inclusionText hword hq, hfront,
    if_pos hword.eqIgnoringCase_concat]

/-- **The name of the directive** is the name in it, whatever it is. -/
theorem includeName_inclusionText {word : String} (hword : IsIncludeWord word.toList)
    (hq : IsQuote q) (name : String) :
    includeName (inclusionText word q name).toList = some name.toList := by
  have hone : ∀ c ∈ word.toList ++ [' '], c.utf8Size = 1 := by
    have hletters : "include".toList.all (·.utf8Size == 1) = true := by decide
    intro c hc
    rcases List.mem_append.mp hc with hc | hc
    · have hletter := List.all_eq_true.mp hletters _ (hword.toLower_mem hc)
      exact utf8Size_of_toLower (beq_iff_eq.mp hletter)
    · obtain rfl := List.mem_singleton.mp hc
      rfl
  rw [includeName, interior_inclusionText hword hq, ← hword.length_concat, inclusionWords,
    dropBytes_of_length hone, Option.map_some, trim_quotedName hq,
    unquote_quotedName hq]

/-- **The directive is the only part of its source,** and the settings are those of the
configuration. -/
theorem parse_inclusionText (config : ParserConfig) {word name : String}
    (hword : IsIncludeWord word.toList) (hq : IsQuote q)
    (hname : ¬ Mode.inside.marker <:+: name.toList) :
    ∃ unit, parse config (inclusionText word q name) = .ok unit ∧
      unit.parts = [⟨inclusionText word q name, none, 0, 1⟩] ∧
      unit.codeParts = [inclusionText word q name] ∧ unit.directives = [] ∧
      unit.language = config.defaultLanguage ∧ unit.imports = .ofList config.defaultImports ∧
      unit.references = .empty := by
  have hsplit := split_eq_singleton (.inr (isBlock_inclusionText hword hq hname))
  have hkind : ∀ p ∈ [Part.mk (inclusionText word q name) none 0 1],
      p.kind ≠ some .configuration := by
    simp [Part.kind, classify_inclusionText hword hq]
  obtain ⟨unit, hunit, hcode, hsettings⟩ := parse_of_split config hsplit hkind
  obtain ⟨hparts, hdrawn⟩ := drawnFrom_of_parse hunit
  have hparts := Except.ok.inj (hparts.symm.trans hsplit)
  have hcount := hdrawn.length_add_length
  rw [hcode, hparts] at hcount
  have hdirectives : unit.directives = [] := List.length_eq_zero_iff.mp (by simpa using hcount)
  exact ⟨unit, hunit, hparts, hcode, hdirectives, hsettings⟩

end Inclusion

end Template

/-! ## Rendering -/

/-- **What a template comes to that is one include:** the name must not be blank; a resolver is
asked for it and for nothing else, and the request must be handled. -/
def includeOutcome (includes : Option Resolver) (name : String) : Outcome :=
  if Text.isBlankString name then
    .failed (.invalidArgument "name" "include name must not be blank")
  else
    let request : IncludeRequest := ⟨name, "", false⟩
    let answer := request.applyAll ((includes.map (· name)).getD [])
    if answer.handled then .output (some answer.content) else .failed (.unresolvedInclude name)

/-- The outcome of an include is that of its piece. -/
theorem rendering_inclusion (includes : Option Resolver) (name : String) :
    Lua.rendering includes [.inclusion name] = includeOutcome includes name := by
  have hresolved (text : String) (h : resolveInclude includes name = .ok text) :
      Lua.rendering includes [.inclusion name] = .output (some text) := by
    rw [Lua.rendering, List.mapM_cons, Lua.Piece.content, h]
    simp [bind, Except.bind, pure, Except.pure, String.join_cons]
  have hunresolved (e : Error) (h : resolveInclude includes name = .error e) :
      Lua.rendering includes [.inclusion name] = .failed e := by
    rw [Lua.rendering, List.mapM_cons, Lua.Piece.content, h]
    rfl
  rw [includeOutcome]
  by_cases hblank : Text.isBlankString name
  · rw [if_pos hblank]
    exact hunresolved _ (by rw [resolveInclude, IncludeRequest.new, if_pos hblank])
  · have hrequest : resolveInclude includes name =
        let answer := IncludeRequest.applyAll ⟨name, "", false⟩ ((includes.map (· name)).getD [])
        if answer.handled then .ok answer.content else .error (.unresolvedInclude name) := by
      rw [resolveInclude, IncludeRequest.new, if_neg hblank]
      cases includes <;> rfl
    rw [if_neg hblank]
    dsimp only at hrequest ⊢
    split_ifs at hrequest ⊢
    · exact hresolved _ hrequest
    · exact hunresolved _ hrequest

/-- **An input whose program takes a state.** Its names are usable and stand on one line, its imports
are found in a new machine, and its parameters differ; where they are the properties of the state,
this has entries or items. -/
structure HandlerInput.Takes (input : HandlerInput) (state : Json) : Prop where
  accepted : Lua.Accepted input
  found : ∀ path ∈ input.imports.toList, Lua.Found Lua.Machine.loaded 6 path
  language : IsLineName input.language
  stateType : IsLineName input.stateType.name
  distinct : (Lua.Outline.ofInput input).parameters.Nodup
  table : input.isPropertyMode = true →
    (∃ entries, state = .object entries) ∨ ∃ items, state = .array items

/-- A state that is taken supplies the values of pieces. -/
theorem HandlerInput.Takes.supplies {input : HandlerInput} {state : Json} (h : input.Takes state)
    (text : String → String) (pieces : List Lua.Piece) :
    (Lua.Outline.ofInput input).Supplies text (pieces.map .piece) state := by
  intro m v m' hvalue
  refine ⟨fun a ha => ?_, by simp [Lua.Portion.Supplied]⟩
  by_cases hmode : input.isPropertyMode = true
  · refine .inr ?_
    rcases h.table hmode with ⟨entries, rfl⟩ | ⟨items, rfl⟩
    · rw [Lua.treeValue] at hvalue
      obtain ⟨es, m₁, -, hvalue⟩ := Lua.Run.bind_eq_done_iff.mp hvalue
      exact ⟨_, (Lua.Step.done.inj hvalue).1.symm⟩
    · rw [Lua.treeValue] at hvalue
      obtain ⟨vs, m₁, -, hvalue⟩ := Lua.Run.bind_eq_done_iff.mp hvalue
      exact ⟨_, (Lua.Step.done.inj hvalue).1.symm⟩
  · simp only [Lua.Outline.ofInput, hmode] at ha
    exact .inl (List.mem_singleton.mp ha)

section Trial

variable {word name : String} {q : Char}

/-- **Both handlers ask for the name in the directive.** -/
theorem Handler.trial_inclusion (fs : FileSystem) (runner : Runner) (includes : Option Resolver)
    {input : HandlerInput} {state : Json}
    (hparts : input.codeParts = [Template.inclusionText word q name])
    (hreferences : input.references = .empty)
    (hword : Template.IsIncludeWord word.toList) (hq : Template.IsQuote q)
    (hname : ¬ Template.Mode.inside.marker <:+: name.toList) :
    (∀ runtimeDir, Text.isBlankString input.language = false →
      Text.isBlankString input.stateType.name = false →
      Echo.isSet state "panic" = false → Echo.isSet state "silent" = false →
      (Handler.echo runtimeDir).trial fs runner includes input state =
        .ok (includeOutcome includes name)) ∧
    ∀ dir libraryDir, input.Takes state →
      (Handler.lua dir { libraryDir }).trial fs runner includes input state =
        .ok (includeOutcome includes name) := by
  have hblock := Template.isBlock_inclusionText hword hq hname
  have hplain : Template.IsPlain (Template.inclusionText word q name) :=
    fun _ => Template.classify_inclusionText hword hq name
  have hpiece : Lua.Piece.ofPart (Template.inclusionText word q name) = .inclusion name := by
    rw [Lua.Piece.ofPart, if_pos hblock.isBlockText, Template.includeName_inclusionText hword hq,
      Option.getD_some, String.ofList_toList]
  refine ⟨fun runtimeDir hlanguage hstateType hpanic hsilent => ?_, fun dir libraryDir htakes => ?_⟩
  · rw [Handler.trial_echo fs runner includes (by simpa [hparts] using hplain) hreferences
      hlanguage hstateType hpanic hsilent, hparts, List.map_singleton, hpiece, rendering_inclusion]
  · have hbody : Lua.bodyLines input.codeParts =
        .ok ([Lua.Portion.piece (.inclusion name)].map Lua.Portion.line) := by
      rw [hparts, Lua.bodyLines, List.mapM_cons, Lua.partStatement_plain hplain (.inr hblock),
        hpiece]
      rfl
    rw [Handler.trial_lua fs runner includes htakes.accepted htakes.found hreferences
      htakes.language htakes.stateType htakes.distinct hbody (by simp [Lua.Portion.names])
      (htakes.supplies (fun _ => "") [.inclusion name]) (by simp) dir libraryDir]
    exact congrArg Except.ok (rendering_inclusion includes name)

/-- **A name in quotes comes to the resolver as it is.** For a name in which the closing marker does
not occur, either quote, and the word of an include in any letter case, the directive is parsed to
one part, which is kept as the only code part, and to no configuration directive; the name of the
include is the name in quotes. Compiled by either handler, the template asks the resolver for that
name, and its outcome is the answer; a blank name is an error.

**Proof sketch.** The closing marker is not in the directive before its end, so the source is one
block. What it says begins with a letter and ends with a quote, so trimming takes off the two blanks
only, and the name between its quotes is neither trimmed nor unquoted any further. To both handlers
the block is an include of that name. -/
theorem include_roundTrip (hword : Template.IsIncludeWord word.toList) (hq : Template.IsQuote q)
    (hname : ¬ Template.Mode.inside.marker <:+: name.toList) :
    let source := Template.inclusionText word q name
    Template.classify source.toList = some .inclusion ∧
    Template.includeName source.toList = some name.toList ∧
    ∀ config, ∃ unit, Template.parse config source = .ok unit ∧
      unit.parts = [⟨source, none, 0, 1⟩] ∧ unit.codeParts = [source] ∧ unit.directives = [] ∧
      unit.language = config.defaultLanguage ∧ unit.imports = .ofList config.defaultImports ∧
      unit.references = .empty ∧
      ∀ stateType parameterName state fs runner includes,
        let input := HandlerInput.ofUnit unit stateType parameterName
        (∀ runtimeDir, Text.isBlankString input.language = false →
          Text.isBlankString stateType.name = false →
          Echo.isSet state "panic" = false → Echo.isSet state "silent" = false →
          (Handler.echo runtimeDir).trial fs runner includes input state =
            .ok (includeOutcome includes name)) ∧
        ∀ dir libraryDir, input.Takes state →
          (Handler.lua dir { libraryDir }).trial fs runner includes input state =
            .ok (includeOutcome includes name) := by
  intro source
  refine ⟨Template.classify_inclusionText hword hq name,
    Template.includeName_inclusionText hword hq name, fun config => ?_⟩
  obtain ⟨unit, hunit, hparts, hcode, hdirectives, hlanguage, himports, hreferences⟩ :=
    Template.parse_inclusionText config hword hq hname
  refine ⟨unit, hunit, hparts, hcode, hdirectives, hlanguage, himports, hreferences, ?_⟩
  intro stateType parameterName state fs runner includes input
  exact Handler.trial_inclusion fs runner includes hcode hreferences hword hq hname

/-- A name with the other quote, a percent sign, a line break and blanks around it. -/
theorem include_roundTrip_awkward :
    let name := " \"é%\n> "
    let resolver : Resolver := fun n => if n = name then [.fulfill "x"] else []
    Template.includeName (Template.inclusionText "InClUdE" '\'' name).toList = some name.toList ∧
    ∃ unit, Template.parse {} (Template.inclusionText "InClUdE" '\'' name) = .ok unit ∧
      let input := HandlerInput.ofUnit unit ⟨"null", "", []⟩ "s"
      (Handler.echo none).trial .empty .isolated (some resolver) input .null =
        .ok (.output (some "x")) ∧
      (Handler.lua ⟨"."⟩ { libraryDir := none }).trial .empty .isolated (some resolver) input
        .null = .ok (.output (some "x")) := by
  intro name resolver
  have hanswer : includeOutcome (some resolver) name = .output (some "x") := by
    simp only [includeOutcome, Option.map_some, Option.getD_some, resolver, if_true]
    decide
  have hword : Template.IsIncludeWord "InClUdE".toList := by
    unfold Template.IsIncludeWord
    decide
  have hname : ¬ Template.Mode.inside.marker <:+: name.toList := by decide
  obtain ⟨-, hincludeName, hparse⟩ :=
    include_roundTrip hword (.inr rfl : Template.IsQuote '\'') hname
  obtain ⟨unit, hunit, -, -, -, hlanguage, himports, hreferences, htrial⟩ := hparse {}
  obtain ⟨hecho, hlua⟩ := htrial ⟨"null", "", []⟩ "s" .null .empty .isolated (some resolver)
  rw [hanswer] at hecho hlua
  let input := HandlerInput.ofUnit unit ⟨"null", "", []⟩ "s"
  have hline : IsLineName input.language := by
    show IsLineName unit.language
    rw [hlanguage]
    exact ⟨by decide, by decide⟩
  have hparameters : (Lua.Outline.ofInput input).parameters = ["s"] := by
    have hmode : Text.isBlankString "s" = false := by decide
    have htrim : Text.trimString "s" = "s" := by decide
    simp only [Lua.Outline.ofInput, HandlerInput.isPropertyMode, input, HandlerInput.ofUnit, hmode,
      htrim]
    rfl
  have hname : IsLineName "null" := ⟨by decide, by decide⟩
  have htakes : input.Takes .null :=
    ⟨⟨by rw [hparameters]; decide, fun path hpath => (Lua.found_default himports path hpath).1⟩,
      fun path hpath => (Lua.found_default himports path hpath).2, hline, hname,
      by rw [hparameters]; decide, fun hmode => absurd hmode (by
        simp only [HandlerInput.isPropertyMode, input, HandlerInput.ofUnit]; decide)⟩
  exact ⟨hincludeName, unit, hunit, hecho none hline.blank (by decide) rfl rfl,
    hlua ⟨"."⟩ none htakes⟩

end Trial

end Stencil
