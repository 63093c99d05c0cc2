import Stencil.Proofs.Lua.Framing
import Stencil.Proofs.Lua.Naming
set_option autoImplicit false

/-!
# One statement after the other

A program has the statements of the parts of its template, in order. What stands in one part is
never taken for the end of the one before it: each part is on lines of its own, and no statement
goes on with a token that begins another, unless that is an opening parenthesis.

## Main definitions

* `Stencil.Lua.SelfContained` — a part whose code stands on its own.

## Main results

* `Stencil.Lua.exists_complete` — the statements of one part.
* `Stencil.Lua.ofTokens_generate` — the statements of a program are those of its parts.
-/

namespace Stencil.Lua

open Juncture (SameBlock SameStat SameExp SameExps)
open Reader (Prepends)
open Template (IsLiteral IsBlock)

/-! ## Parts -/

/-- **A part whose code stands on its own.** The expression of a block is one, without a comment at
its end; other code is a block, which does not begin with a parenthesis nor end with a `return`. -/
def SelfContained (part : String) : Prop :=
  isBlock part.toList = true → Template.classify part.toList = none →
    match blockInside part.toList with
    | '=' :: expression =>
      (∃ x, Expresses (Text.trim expression) x) ∧ ¬ EndsInSemicolon (Text.trim expression) ∧
        endsInComment (Text.trim expression) = false
    | code => ∃ b, Block.Complete (Text.trim code) b

/-- The statement that writes an expression. -/
def writeStat (x : Exp) : Stat := .call (.call 0 (.var "__write".toList) [x])

/-- **The statement that writes an expression of one line.** -/
theorem complete_write_readsAs {s : String} {ts : List Token} {x : Exp}
    (h : ReadsAs Anything s.toList ts) (hlast : ts.getLast? ≠ some (.symbol .semicolon))
    (hread : Block.ofTokens (⟨.keyword .«return», 0⟩ :: (ts.map (⟨·, 1⟩) ++ [⟨.finish, 1⟩])) =
      .ok ([.yields [x]], 1)) :
    ∃ b, Block.Complete (writeStatement s).toList b ∧ SameBlock [writeStat x] b := by
  have hlex (line : Nat) : lex line s.toList = ts.map (⟨·, line⟩) ++ [⟨.finish, line⟩] := by
    have heq := h line [] trivial
    rwa [List.append_nil] at heq
  have hkinds (line : Nat) (us : List Located) :
      kinds (ts.map (⟨·, line⟩) ++ us) = ts ++ kinds us := by
    simp [kinds, Function.comp_def]
  have hsemicolon : ¬ EndsInSemicolon s.toList := by
    rintro ⟨us, hus⟩
    rw [tokenize_eq_lex, hlex, hkinds] at hus
    obtain rfl : ts = us ++ [.symbol .semicolon] := by
      have hend : ts ++ [Token.finish] = us ++ [.symbol .semicolon] ++ [.finish] := by
        rw [List.append_assoc]
        exact hus
      exact List.append_cancel_right hend
    simp at hlast
  have hclose : Closable s.toList := by
    intro line us hus
    rw [tokenize_eq_lex, hlex, hkinds] at hus
    obtain rfl : ts = us := List.append_cancel_right hus
    rw [h line [')'] trivial, hkinds]
    rfl
  have hexpresses : Expresses s.toList x := ⟨1, by rw [tokenize_eq_lex, hlex]; exact hread⟩
  have htext : (writeStatement s).toList = "  __write(".toList ++ (s.toList ++ [')']) := by
    simp [writeStatement]
  rw [htext]
  exact complete_write hexpresses hsemicolon hclose

/-- The statement of a literal. -/
theorem complete_literal (text : String) :
    ∃ b, Block.Complete (writeStatement (quote text)).toList b ∧
      SameBlock [writeStat (.string (Bytes.ofText text))] b := by
  have hquote : ReadsAs Anything (quote text).toList [.string (Bytes.ofText text)] := by
    rw [quote, String.toList_ofList]
    exact readsAs_quoteText text.toList
  exact complete_write_readsAs hquote (by simp) rfl

/-- The call for an include. -/
def includeCall (name : String) : Exp :=
  .call 1 (.field 1 (.var "codet".toList) "include".toList) [.string (Bytes.ofText name)]

/-- The statement of an include. -/
theorem complete_inclusion (name : String) :
    ∃ b, Block.Complete (writeStatement ("codet.include(" ++ quote name ++ ")")).toList b ∧
      SameBlock [writeStat (includeCall name)] b := by
  have hlist : ("codet.include(" ++ quote name ++ ")").toList =
      "codet.include(".toList ++ (quoteText name.toList ++ [')']) := by
    simp [quote]
  have hopen : ReadsAs Anything "codet.include(".toList
      [.name "codet".toList, .symbol .dot, .name "include".toList, .symbol .leftParen] :=
    readsAs_anything 4 fun _ _ _ => rfl
  have hclose : ReadsAs Anything [')'] [.symbol .rightParen] := readsAs_anything 1 fun _ _ _ => rfl
  have hname := (readsAs_quoteText name.toList).append hclose fun _ _ => trivial
  have hcall := hopen.append hname fun _ _ => trivial
  rw [← hlist] at hcall
  exact complete_write_readsAs hcall (by simp) rfl

/-- Blanks in front of a complete block. -/
theorem Block.Complete.indent {s : List Char} {b : Block} (h : Complete s b) :
    Complete (' ' :: ' ' :: s) b := by
  have hblank : ReadsAs Anything [' ', ' '] [] := readsAs_anything 2 fun _ _ _ => rfl
  have htokens : tokenize (' ' :: ' ' :: s) = tokenize s := hblank 1 s trivial
  exact ⟨by rw [htokens]; exact h.reads, h.noReturn, by rw [htokens]; exact h.noParen⟩

/-! ## The statements of a part -/

/-- **The statements that a part has on its own:** what the text for it is read as. -/
def ReadsAlone (part : String) (b : Block) : Prop :=
  ∃ text line, partStatement part = .ok (some text) ∧
    Block.ofTokens (tokenize text.toList) = .ok (b, line)

/-- **The statements of one part.** -/
theorem exists_complete {part : String} (h : SelfContained part)
    (hkind : IsLiteral part.toList ∨ IsBlock part.toList)
    (hclass : Template.classify part.toList ≠ some .configuration) :
    ∃ s b, partStatement part = .ok (some s) ∧ s.toList.head? ≠ some '\r' ∧
      Block.Complete s.toList b := by
  by_cases hplain : Template.IsPlain part
  · have hstatement := partStatement_plain hplain hkind
    cases hpiece : Piece.ofPart part with
    | literal text =>
      rw [hpiece] at hstatement
      obtain ⟨b, hb, -⟩ := complete_literal text
      exact ⟨_, b, hstatement, by simp [Piece.line, writeStatement], hb⟩
    | inclusion name =>
      rw [hpiece] at hstatement
      obtain ⟨b, hb, -⟩ := complete_inclusion name
      exact ⟨_, b, hstatement, by simp [Piece.line, writeStatement], hb⟩
  · obtain ⟨hblock, hnone⟩ := isBlock_of_not_isPlain hplain hkind hclass
    have hcode := h (isBlock_eq_true hblock) hnone
    split at hcode
    · rename_i expression hinside
      obtain ⟨⟨x, hx⟩, hsemicolon, hcomment⟩ := hcode
      obtain ⟨b, hb, -⟩ := complete_write hx hsemicolon (closable_of_not_endsInComment hcomment)
      refine ⟨_, b, partStatement_expression hblock hnone hinside, by simp [writeStatement], ?_⟩
      simpa [writeStatement] using hb
    · rename_i hinside
      obtain ⟨b, hb⟩ := hcode
      exact ⟨_, b, partStatement_code hblock hnone hinside, by simp, by simpa using hb.indent⟩

/-! ## The lines around the parts -/

/-- What is bound to the imports of an accepted input is an identifier. -/
theorem Accepted.isIdentifier_import {input : HandlerInput} (h : Accepted input) :
    ∀ i ∈ (Outline.ofInput input).imports, isIdentifier i.1 = true := by
  intro i hi
  rcases List.mem_append.mp hi with hi | hi
  · obtain ⟨path, hpath, rfl⟩ := List.mem_map.mp hi
    exact (h.imports path hpath).isIdentifier
  · split at hi
    · cases hi
    · rw [List.mem_singleton.mp hi]
      decide

namespace Outline

/-- The tokens before the statements of the parts. -/
def openingTokens (o : Outline) : List Token :=
  preludeTokens.flatten ++ (o.imports.map fun i => importTokens i.1 i.2).flatten ++
    (openTokens o.parameters ++ prologueTokens.flatten)

/-- **The lines before the statements of the parts** have their tokens. -/
theorem spells_opening {o : Outline} (hparameters : ∀ p ∈ o.parameters, isIdentifier p = true)
    (himports : ∀ i ∈ o.imports, isIdentifier i.1 = true) :
    ∃ tss, List.Forall₂ Spells o.opening tss ∧ tss.flatten = o.openingTokens := by
  have hprelude := lineReads_prelude.imp fun _ _ h => h.spells
  have hprologue := lineReads_prologue.imp fun _ _ h => h.spells
  have himport : List.Forall₂ Spells (o.imports.map fun i => importStatement i.1 i.2)
      (o.imports.map fun i => importTokens i.1 i.2) := by
    rw [List.forall₂_map_left_iff, List.forall₂_map_right_iff, List.forall₂_same]
    exact fun i hi => (lineReads_import (himports i hi) i.2).spells
  have hopen : List.Forall₂ Spells
      ["local function __render(" ++ ", ".intercalate o.parameters ++ ")"]
      [openTokens o.parameters] := .cons (lineReads_open hparameters).spells .nil
  refine ⟨_, List.rel_append (List.rel_append (List.rel_append (List.rel_append hprelude himport)
    (.cons lineReads_empty.spells .nil)) hopen) hprologue, ?_⟩
  simp only [openingTokens, List.flatten_append, List.flatten_cons, List.flatten_nil,
    List.nil_append, List.append_nil, List.append_assoc]

end Outline

/-! ## The whole program -/

/-- The statement of each part. -/
theorem bodyLines_complete {parts : List String} {ls : List String}
    (hparts : ∀ part ∈ parts, SelfContained part)
    (hkind : ∀ part ∈ parts, IsLiteral part.toList ∨ IsBlock part.toList)
    (hclass : ∀ part ∈ parts, Template.classify part.toList ≠ some .configuration)
    (h : bodyLines parts = .ok ls) :
    ∃ tss bs, List.Forall₂ Spells ls tss ∧ List.Forall₂ Prepends tss bs ∧
      List.Forall₂ ReadsAlone parts bs := by
  obtain ⟨os, hos, rfl⟩ := exists_of_map_eq_ok h
  have hall := mapM_eq_ok hos
  clear hos h
  induction hall with
  | nil => exact ⟨[], [], .nil, .nil, .nil⟩
  | @cons part o parts os ho _ ih =>
    obtain ⟨s, b, hs, hhead, hb⟩ := exists_complete (hparts part (by simp))
      (hkind part (by simp)) (hclass part (by simp))
    obtain rfl : o = some s := Except.ok.inj (ho.symm.trans hs)
    obtain ⟨ts, hspells, hprepends⟩ := hb.spells hhead
    obtain ⟨line, hread⟩ := hb.reads
    obtain ⟨tss, bs, htss, hbs, hread'⟩ := ih (fun p hp => hparts p (by simp [hp]))
      (fun p hp => hkind p (by simp [hp])) (fun p hp => hclass p (by simp [hp]))
    exact ⟨ts :: tss, b :: bs, .cons hspells htss, .cons hprepends hbs,
      .cons ⟨s, line, hs, hread⟩ hread'⟩

/-- **The tokens of a program** are those of its outline, with those of the parts between. -/
theorem kinds_program {o : Outline} {first : String} {ls : List String} {tss : List (List Token)}
    (hfirst : LineReads first []) (hparameters : ∀ p ∈ o.parameters, isIdentifier p = true)
    (himports : ∀ i ∈ o.imports, isIdentifier i.1 = true) (hls : List.Forall₂ Spells ls tss) :
    kinds (tokenize (o.text first ls).toList) =
      o.openingTokens ++ tss.flatten ++ (closeTokens o.arguments ++ [.finish]) := by
  obtain ⟨uss, huss, hopening⟩ := Outline.spells_opening hparameters himports
  have hclose := (lineReads_end o.arguments).imp fun _ _ h => h.spells
  have hall := List.rel_append (List.rel_append (List.rel_append (.cons hfirst.spells .nil) huss)
    hls) hclose
  rw [Outline.text, tokenize_eq_lex, kinds_lex_lines hall]
  simp only [List.flatten_append, List.flatten_cons, List.flatten_nil, List.nil_append,
    List.append_nil, List.append_assoc, hopening, flatten_endTokens]

/-- **The statements of a program,** from those of each part on its own.

**Proof sketch.** Each line of the program has tokens of its own, those of a part among them. A
part is read in front of the statements behind it as it is on its own, and so is the fixed text. -/
theorem exists_framed {input : HandlerInput} {program : String}
    (hkind : ∀ part ∈ input.codeParts, IsLiteral part.toList ∨ IsBlock part.toList)
    (hclass : ∀ part ∈ input.codeParts, Template.classify part.toList ≠ some .configuration)
    (hlanguage : ∀ c ∈ input.language.toList, isBreak c = false)
    (hname : ∀ c ∈ input.stateType.name.toList, isBreak c = false)
    (hparts : ∀ part ∈ input.codeParts, SelfContained part)
    (hgenerate : generate input = .ok program) :
    ∃ (s : Signature) (imports : List Import) (as : List Passed) (bs : List Block) (b : Block)
      (line : Nat), signature input = .ok s ∧ s.arguments = as.map Passed.text ∧
      importLines input.imports = .ok (imports.map fun i => importStatement i.1 i.2) ∧
      List.Forall₂ ReadsAlone input.codeParts bs ∧
      Block.ofTokens (tokenize program.toList) = .ok (b, line) ∧
      SameBlock (framed (s.parameters.map String.toList) imports bs.flatten
        (as.map Passed.value)) b := by
  obtain ⟨haccepted, body, hbody, rfl⟩ := generate_eq_ok_iff.mp hgenerate
  have hparameters : ∀ p ∈ (Outline.ofInput input).parameters, isIdentifier p = true :=
    fun p hp => (haccepted.parameters p hp).isIdentifier
  obtain ⟨tss, bs, htss, hbs, hread⟩ := bodyLines_complete hparts hkind hclass hbody
  have htokens := kinds_program (lineReads_header hlanguage hname) hparameters
    haccepted.isIdentifier_import htss
  have hreads := reads_framed (Outline.ofInput input).parameters (Outline.ofInput input).imports
    (Outline.ofInput input).arguments (Prepends.flatten hbs)
  simp only [Outline.openingTokens, List.append_assoc] at htokens hreads
  rw [← htokens] at hreads
  obtain ⟨b, line, hb, hsame⟩ := hreads.ofTokens (by rw [htokens]; simp [preludeTokens])
  exact ⟨_, _, _, bs, b, line, signature_eq_ok_iff.mpr ⟨haccepted.parameters, rfl⟩, rfl,
    importLines_eq_ok_iff.mpr ⟨haccepted.imports, rfl⟩, hread, hb, hsame⟩

/-- **The statements of a program are those of its parts,** one after the other, if the code of
each part stands on its own. -/
theorem ofTokens_generate {config : Template.ParserConfig} {source : String}
    {unit : Template.CompilationUnit} {input : HandlerInput} {program : String}
    (hparse : Template.parse config source = .ok unit) (hcode : input.codeParts = unit.codeParts)
    (hlanguage : ∀ c ∈ input.language.toList, isBreak c = false)
    (hname : ∀ c ∈ input.stateType.name.toList, isBreak c = false)
    (hparts : ∀ part ∈ input.codeParts, SelfContained part)
    (hgenerate : generate input = .ok program) :
    ∃ (s : Signature) (imports : List Import) (as : List Passed) (bs : List Block) (b : Block)
      (line : Nat), signature input = .ok s ∧ s.arguments = as.map Passed.text ∧
      importLines input.imports = .ok (imports.map fun i => importStatement i.1 i.2) ∧
      List.Forall₂ ReadsAlone input.codeParts bs ∧
      Block.ofTokens (tokenize program.toList) = .ok (b, line) ∧
      SameBlock (framed (s.parameters.map String.toList) imports bs.flatten
        (as.map Passed.value)) b :=
  exists_framed
    (fun _ hp => Template.isLiteral_or_isBlock_of_mem_codeParts hparse (hcode ▸ hp))
    (fun _ hp => Template.classify_ne_of_mem_codeParts hparse (hcode ▸ hp)) hlanguage hname
    hparts hgenerate

/-- A literal, an assignment with a comment behind it, and the value that is assigned. -/
def assigning : HandlerInput where
  language := "Lua5.4"
  imports := .ofList ["codet"]
  references := .empty
  codeParts := ["a", "<% x = 1 -- one %>", "<%= x %>"]
  stateType := ⟨"S", "", []⟩
  parameterName := "s"

/-- The code of each part stands on its own. -/
theorem selfContained_assigning : ∀ part ∈ assigning.codeParts, SelfContained part := by
  have hassign : Block.Complete (Text.trim " x = 1 -- one ".toList)
      [.assign 1 [.var "x".toList] [.number (.int 1)]] := by
    have hfirst : (kinds (tokenize (Text.trim " x = 1 -- one ".toList))).head? =
        some (.name "x".toList) := by cbv
    refine ⟨⟨1, by cbv⟩, by simp, by rw [hfirst]; simp⟩
  have hvalue : Expresses (Text.trim " x ".toList) (.var "x".toList) := ⟨1, by cbv⟩
  have hsemicolon : ¬ EndsInSemicolon (Text.trim " x ".toList) := by
    have htokens : kinds (tokenize (Text.trim " x ".toList)) = [.name "x".toList, .finish] := by cbv
    rintro ⟨ts, hts⟩
    rw [htokens] at hts
    have hlast := congrArg (fun us => us.reverse[1]?) hts
    simp at hlast
  intro part hpart
  simp only [assigning, List.mem_cons, List.not_mem_nil, or_false] at hpart
  rcases hpart with rfl | rfl | rfl
  · intro hblock
    cases hblock
  · intro _ _
    exact ⟨_, hassign⟩
  · intro _ _
    exact ⟨⟨_, hvalue⟩, hsemicolon, rfl⟩

/-- The template whose parts they are has a program, which has their statements. -/
theorem ofTokens_generate_assigning :
    ∃ program, generate assigning = .ok program ∧
      ∃ (s : Signature) (imports : List Import) (as : List Passed) (bs : List Block) (b : Block)
        (line : Nat), signature assigning = .ok s ∧ s.arguments = as.map Passed.text ∧
      importLines assigning.imports = .ok (imports.map fun i => importStatement i.1 i.2) ∧
      List.Forall₂ ReadsAlone assigning.codeParts bs ∧
      Block.ofTokens (tokenize program.toList) = .ok (b, line) ∧
      SameBlock (framed (s.parameters.map String.toList) imports bs.flatten
        (as.map Passed.value)) b := by
  have hsplit : Template.split "a<% x = 1 -- one %><%= x %>" =
      .ok [⟨"a", none, 0, 1⟩, ⟨"<% x = 1 -- one %>", none, 1, 1⟩, ⟨"<%= x %>", none, 19, 1⟩] := by
    cbv
  obtain ⟨unit, hunit, hparts, -⟩ := Template.parse_of_split {} hsplit (by decide)
  obtain ⟨program, hprogram⟩ : ∃ program, generate assigning = .ok program := by
    have hsignature : signature assigning = .ok ⟨["s"], ["__state"]⟩ := by cbv
    have himports : importLines assigning.imports = .ok [importStatement "codet" "codet"] := by cbv
    have hbody : bodyLines assigning.codeParts =
        .ok ["  __write(\"a\")", "  x = 1 -- one", "  __write(x)"] := by
      cbv
    rw [generate, hsignature, himports, hbody]
    exact ⟨_, rfl⟩
  exact ⟨program, hprogram, ofTokens_generate hunit hparts.symm (by simp [assigning, isBreak])
    (by simp [assigning, isBreak]) selfContained_assigning hprogram⟩

/-- What begins with a parenthesis does not stand on its own: it is taken for the arguments of the
statement before it. -/
example : Block.ofTokens (tokenize "a()\n(b)()".toList) =
    .ok ([.call (.call 2 (.call 2 (.call 1 (.var ['a']) []) [.var ['b']]) [])], 2) := by
  cbv

end Stencil.Lua
