import Stencil.Context
import Stencil.Mock
import Stencil.Proofs.ReferenceList
import Stencil.Proofs.Json.StringList
import Stencil.Proofs.Lua.Preamble
import Stencil.Proofs.Lua.Rendering
set_option autoImplicit false

/-!
# Agreement of the handlers

A template of literals and includes has the same outcome under the handler that writes programs
and under the one that echoes its parts: the texts of the literals and the contents of the
includes one behind the other, or the error of the first include that fails.

## Main definitions

* `Stencil.Handler.trial` — compiling an input and executing it.
* `Stencil.HandlerInput.Plain` — an input without code.

## Main results

* `Stencil.Echo.render_plain` — the outcome of an echo.
* `Stencil.Handler.trial_lua_eq_trial_echo` — both handlers have the same outcome.
-/

namespace Stencil

open Lua (Piece Portion)
open Template (IsPlain)

/-! ## Inputs without code -/

/-- **Compiling an input and executing it** for a state, with a resolver for the includes or
without one. -/
def Handler.trial {σ : Type} [Renderable σ] (h : Handler σ) (fs : FileSystem) (runner : Runner)
    (includes : Option Resolver) (input : HandlerInput) (state : Json) : Except Error Outcome :=
  (h.build fs input).map fun compiled =>
    (Context.execute ({
      runner, includes
      holding := .compiled input.language compiled.program compiled.artifact } : Context σ)
        state).1

/-- **A name that stands on one line,** and is not blank. -/
structure IsLineName (name : String) : Prop where
  blank : Text.isBlankString name = false
  line : '\n' ∉ name.toList ∧ '\r' ∉ name.toList

/-- **A source that can be addressed:** the places of its bytes are integers of the machine. -/
def Addressable (source : String) : Prop := Text.utf8Length source.toList < 2 ^ 63

/-- **An input without code:** its parts are those of a template of literals and includes, with
the default imports and without references. -/
structure HandlerInput.Plain (input : HandlerInput) : Prop where
  parsed : ∃ config source unit, Addressable source ∧
    Template.parse config source = .ok unit ∧ unit.codeParts = input.codeParts
  parts : ∀ part ∈ input.codeParts, IsPlain part
  imports : input.imports = .ofList ({} : Template.ParserConfig).defaultImports
  references : input.references = .empty
  parameter : Lua.isUsable (Text.trimString input.parameterName) = true
  language : IsLineName input.language
  stateType : IsLineName input.stateType.name

/-- A text has no more characters than bytes. -/
theorem length_le_utf8Length (s : List Char) : s.length ≤ Text.utf8Length s := by
  induction s with
  | nil => exact Nat.zero_le _
  | cons c s ih =>
    have hc := c.utf8Size_pos
    rw [List.length_cons, Text.utf8Length_cons]
    omega

namespace HandlerInput.Plain

variable {input : HandlerInput}

/-- The parts of an input without code are of the grammar. -/
theorem kinds (h : input.Plain) : ∀ part ∈ input.codeParts,
    Template.IsLiteral part.toList ∨ Template.IsBlock part.toList := by
  obtain ⟨config, source, unit, -, hparse, hparts⟩ := h.parsed
  intro part hpart
  rw [← hparts] at hpart
  exact Template.isLiteral_or_isBlock_of_mem_codeParts hparse hpart

/-- The parts of an input without code can be counted. -/
theorem length_lt (h : input.Plain) : input.codeParts.length < 2 ^ 63 := by
  obtain ⟨config, source, unit, haddress, hparse, hparts⟩ := h.parsed
  have hcount := Template.length_codeParts_le hparse
  have hbytes := length_le_utf8Length source.toList
  rw [hparts] at hcount
  rw [String.length_toList] at hbytes
  unfold Addressable at haddress
  omega

end HandlerInput.Plain

/-- **Both steps of a handler** for an input without references: it refers to no library but those
of the host. -/
theorem Handler.build_eq {σ : Type} {handler : Handler σ} {fs : FileSystem} {input : HandlerInput}
    {program : String} {artifact : σ} (hreferences : input.references = .empty)
    (hlanguage : Text.isBlankString input.language = false)
    (hstateType : Text.isBlankString input.stateType.name = false)
    (hgenerate : handler.generate input = .ok program)
    (hcompile : handler.compile fs
      ⟨input.language, program, resolveReferences fs handler.runtimeDir input.stateType []⟩ =
        .ok artifact) : handler.build fs input = .ok ⟨program, artifact⟩ := by
  have hrequest : handler.request fs input = .ok
      ⟨input.language, program, resolveReferences fs handler.runtimeDir input.stateType []⟩ := by
    rw [Handler.request, hlanguage, hstateType, hgenerate, hreferences]
    rfl
  simp only [Handler.build, hrequest, hcompile]

/-! ## Echoes -/

/-- The text of a part without code is that of its piece. -/
theorem Echo.partText_plain {includes : Option Resolver} {part : String} (h : IsPlain part) :
    Echo.partText includes part = (Piece.ofPart part).content includes := by
  by_cases hblock : Template.Part.isBlockText part = true
  · obtain ⟨name, hname⟩ := Template.exists_includeName (h hblock)
    simp only [Echo.partText, hblock, h hblock, hname, Piece.ofPart, if_true, Option.getD_some]
    rfl
  · simp only [Echo.partText, hblock, Piece.ofPart]
    rfl

/-- The texts of parts without code are those of their pieces. -/
theorem Echo.mapM_partText {includes : Option Resolver} {parts : List String}
    (h : ∀ part ∈ parts, IsPlain part) :
    parts.mapM (Echo.partText includes) =
      (parts.map Piece.ofPart).mapM (Piece.content includes) := by
  induction parts with
  | nil => rfl
  | cons part parts ih =>
    rw [List.mapM_cons, List.map_cons, List.mapM_cons, Echo.partText_plain (h part (by simp)),
      ih fun p hp => h p (by simp [hp])]

/-- **The outcome of an echo** of parts without code. -/
theorem Echo.render_plain {includes : Option Resolver} {parts : List String} {state : Json}
    (h : ∀ part ∈ parts, IsPlain part) (hpanic : Echo.isSet state "panic" = false)
    (hsilent : Echo.isSet state "silent" = false) :
    (Echo.mk parts).render state includes =
      Lua.rendering includes (parts.map Piece.ofPart) := by
  rw [Echo.render, hpanic, hsilent, if_neg (by simp), if_neg (by simp), Echo.text,
    Echo.mapM_partText h, Lua.rendering]
  cases (parts.map Piece.ofPart).mapM (Piece.content includes) <;> rfl

/-- An outcome that is no breakdown is the same under any runner. -/
theorem Runner.run_rendering (runner : Runner) (includes : Option Resolver) (pieces : List Piece) :
    runner.run (Lua.rendering includes pieces) = Lua.rendering includes pieces := by
  rw [Lua.rendering]
  cases pieces.mapM (Piece.content includes) <;> cases runner <;> rfl

/-! ## Both handlers -/

section Trial

variable {input : HandlerInput} {state : Json} (fs : FileSystem) (runner : Runner)
  (includes : Option Resolver)

/-- The libraries of a compilation without declared references are those of the host. -/
theorem isHost_of_mem_resolveReferences {dir : Option Path} {stateType : StateType} :
    ∀ r ∈ resolveReferences fs dir stateType [], r.isHost = true := by
  intro r hr
  have hr := (dropRepeated_sublist _ _).subset hr
  rw [List.map_nil, List.append_nil] at hr
  obtain ⟨name, -, rfl⟩ := List.mem_map.mp hr
  rfl

/-- **The trial of the handler that echoes,** for an input whose parts are no code. -/
theorem Handler.trial_echo (hparts : ∀ part ∈ input.codeParts, IsPlain part)
    (hreferences : input.references = .empty)
    (hlanguage : Text.isBlankString input.language = false)
    (hstateType : Text.isBlankString input.stateType.name = false)
    (hpanic : Echo.isSet state "panic" = false) (hsilent : Echo.isSet state "silent" = false)
    (dir : Option Path) :
    (Handler.echo dir).trial fs runner includes input state =
      .ok (Lua.rendering includes (input.codeParts.map Piece.ofPart)) := by
  have hbuild : (Handler.echo dir).build fs input =
      .ok ⟨(Json.strings input.codeParts).pretty, ⟨input.codeParts⟩⟩ := by
    refine Handler.build_eq hreferences hlanguage hstateType rfl ?_
    simp only [Handler.echo, Echo.ofProgram_strings]
  rw [Handler.trial, hbuild]
  show Except.ok (runner.run ((Echo.mk input.codeParts).render state includes)) = _
  rw [Echo.render_plain hparts hpanic hsilent, Runner.run_rendering]

/-- **The default imports are found** in a new machine, and a program may import them. -/
theorem Lua.found_default (himports : input.imports =
      .ofList ({} : Template.ParserConfig).defaultImports) :
    ∀ path ∈ input.imports.toList,
      Lua.Importable path ∧ Lua.Found Lua.Machine.loaded 6 path := by
  have hlist : input.imports.toList = Lua.standardImports.map Prod.snd := by
    rw [himports]
    cbv
  have hfound : ∀ i ∈ Lua.standardImports, Lua.Importable i.2 ∧
      (Lua.standardValue i).isNil = false := by decide
  intro path hpath
  rw [hlist] at hpath
  obtain ⟨i, hi, rfl⟩ := List.mem_map.mp hpath
  refine ⟨(hfound i hi).1, ?_⟩
  rw [Lua.Found, Lua.importValue_standard Lua.libraries_loaded rfl i hi]
  exact (hfound i hi).2

/-- **The trial of the handler that writes programs,** for an input whose parts are portions and a
state that supplies their values. Its imports are found in a new machine, and it has no references.

**Proof sketch.** The program has one line for each portion; it is compiled to a session that is
ready for them. -/
theorem Handler.trial_lua {text : String → String} {portions : List Portion}
    (haccepted : Lua.Accepted input)
    (hfound : ∀ path ∈ input.imports.toList, Lua.Found Lua.Machine.loaded 6 path)
    (hreferences : input.references = .empty) (hlanguage : IsLineName input.language)
    (hstateType : IsLineName input.stateType.name)
    (hnodup : (Lua.Outline.ofInput input).parameters.Nodup)
    (hbody : Lua.bodyLines input.codeParts = .ok (portions.map Portion.line))
    (hnames : ∀ p ∈ portions, ∀ name ∈ p.names, Lua.Usable name)
    (hstate : (Lua.Outline.ofInput input).Supplies text portions state)
    (hlength : portions.length < 2 ^ 63) (dir : Path) (libraryDir : Option Path) :
    (Handler.lua dir { libraryDir }).trial fs runner includes input state =
      .ok (Lua.rendering includes (portions.map (Portion.resolve text))) := by
  let o := Lua.Outline.ofInput input
  have hresolves : o.Resolves Lua.Machine.loaded 6 5 := haccepted.resolves hfound
    (Lua.importValue_standard Lua.libraries_loaded rfl ("codet", "codet") (by decide))
  obtain ⟨program, hprogram⟩ : ∃ program, program =
      o.text (Lua.header input) (portions.map Portion.line) := ⟨_, rfl⟩
  have hgenerate : Lua.generate input = .ok program :=
    Lua.generate_eq_ok_iff.mpr ⟨haccepted, _, hbody, hprogram⟩
  have hbreak {name : String} (hname : IsLineName name) :
      ∀ c ∈ name.toList, Lua.isBreak c = false := by
    intro c hc
    have hn : c ≠ '\n' := fun heq => hname.line.1 (heq ▸ hc)
    have hr : c ≠ '\r' := fun heq => hname.line.2 (heq ▸ hc)
    simp [Lua.isBreak, hn, hr]
  obtain ⟨s, hcompile, hready⟩ := Lua.compile_program fs
    ⟨input.language, program, resolveReferences fs
      (Handler.lua dir { libraryDir }).runtimeDir input.stateType []⟩
    (isHost_of_mem_resolveReferences fs) hprogram
    (Lua.lineReads_header (hbreak hlanguage) (hbreak hstateType)) hresolves
    (fun p hp => (Lua.isUsable_iff p).mpr (haccepted.parameters p hp))
    (fun p hp name hname => (Lua.isUsable_iff name).mpr (hnames p hp name hname))
  have hbuild : (Handler.lua dir { libraryDir }).build fs input = .ok ⟨program, s⟩ :=
    Handler.build_eq hreferences hlanguage.blank hstateType.blank hgenerate hcompile
  have hharmless : ∀ p ∈ portions, ∀ name ∈ p.names, Lua.Harmless name.toList :=
    fun p hp name hname =>
      Lua.harmless_of_isUsable ((Lua.isUsable_iff name).mpr (hnames p hp name hname))
  rw [Handler.trial, hbuild]
  show Except.ok (runner.run (s.render state includes).1) = _
  rw [hready.render includes hnodup hharmless hstate hlength, Runner.run_rendering]

/-- The trial of that handler for an input without code. -/
theorem Handler.trial_lua_plain (h : input.Plain) (dir : Path) (libraryDir : Option Path) :
    (Handler.lua dir { libraryDir }).trial fs runner includes input state =
      .ok (Lua.rendering includes (input.codeParts.map Piece.ofPart)) := by
  let portions := (input.codeParts.map Piece.ofPart).map Portion.piece
  have hmode : input.isPropertyMode = false := Lua.isBlankString_of_isUsable h.parameter
  have hparameters : (Lua.Outline.ofInput input).parameters =
      [Text.trimString input.parameterName] := by
    rw [Lua.Outline.ofInput, hmode]
    rfl
  have harguments : (Lua.Outline.ofInput input).arguments = [.state] := by
    rw [Lua.Outline.ofInput, hmode]
    rfl
  have hbody : Lua.bodyLines input.codeParts = .ok (portions.map Portion.line) := by
    rw [Lua.bodyLines_plain h.parts h.kinds]
    simp [portions, Function.comp_def, Portion.line]
  have hstate : (Lua.Outline.ofInput input).Supplies (fun _ => "") portions state := by
    intro m v m' _
    refine ⟨by simp [harguments], ?_⟩
    simp [portions, Portion.Supplied]
  have hlength : portions.length < 2 ^ 63 := by
    simpa [portions] using h.length_lt
  have haccepted : Lua.Accepted input :=
    ⟨by simpa [hparameters] using (Lua.isUsable_iff _).mp h.parameter,
      fun path hpath => (Lua.found_default h.imports path hpath).1⟩
  have htrial := Handler.trial_lua fs runner includes haccepted
    (fun path hpath => (Lua.found_default h.imports path hpath).2) h.references h.language
    h.stateType (by simp [hparameters]) hbody (by simp [portions, Portion.names]) hstate hlength dir libraryDir
  rw [htrial]
  simp [portions, Function.comp_def, Portion.resolve]

end Trial

/-- **Both handlers agree** on an input without code, for any file system, any state that does not
ask the echo to break down or to stay silent, and any resolver or none. What comes out is the texts
of the literals as they are written and the contents of the includes, in order and one behind the
other; or the error of the first include that fails.

**Proof sketch.** The parts of the input are literals and blocks of the grammar, so both handlers
take each part for the same piece. The list of parts comes back from the program of the one. The
program of the other is read and run: each of its statements writes the text of a piece, and an
error of the host comes out of it as it went in. -/
theorem Handler.trial_lua_eq_trial_echo {input : HandlerInput} (h : input.Plain) {state : Json}
    (hpanic : Echo.isSet state "panic" = false) (hsilent : Echo.isSet state "silent" = false)
    (fs : FileSystem) (runner : Runner) (includes : Option Resolver) (dir : Path)
    (libraryDir runtimeDir : Option Path) :
    (Handler.lua dir { libraryDir }).trial fs runner includes input state =
      (Handler.echo runtimeDir).trial fs runner includes input state ∧
    (Handler.echo runtimeDir).trial fs runner includes input state =
      .ok (Lua.rendering includes (input.codeParts.map Piece.ofPart)) := by
  have hecho := Handler.trial_echo fs runner includes h.parts h.references h.language.blank
    h.stateType.blank hpanic hsilent runtimeDir
  exact ⟨(Handler.trial_lua_plain fs runner includes h dir libraryDir).trans hecho.symm, hecho⟩

/-- A quote and a backslash in front of an include, for the state `null`. -/
def quoted : HandlerInput where
  language := "Lua5.4"
  imports := .ofList ["string", "table", "codet"]
  references := .empty
  codeParts := ["\"\\", "<%@ include b %>"]
  stateType := ⟨"null", "", []⟩
  parameterName := "s"

/-- The parts of the input are those of a template. -/
theorem plain_quoted : quoted.Plain := by
  have hsplit : Template.split "\"\\<%@ include b %>" =
      .ok [⟨"\"\\", none, 0, 1⟩, ⟨"<%@ include b %>", none, 2, 1⟩] := by cbv
  obtain ⟨unit, hunit, hparts, -⟩ := Template.parse_of_split {} hsplit (by decide)
  exact ⟨⟨_, _, unit, by unfold Addressable; decide, hunit, hparts⟩, by decide, rfl, rfl,
    by decide, ⟨by decide, by decide⟩, ⟨by decide, by decide⟩⟩

/-- The text of the literal is written as it is, and the content of the include behind it. -/
theorem Handler.trial_lua_eq_trial_echo_quoted :
    (Handler.lua ⟨"."⟩ {}).trial .empty .isolated (some fun _ => [.fulfill " x "]) quoted .null =
      (Handler.echo none).trial .empty .isolated (some fun _ => [.fulfill " x "]) quoted .null ∧
    (Handler.echo none).trial .empty .isolated (some fun _ => [.fulfill " x "]) quoted .null =
      .ok (.output (some "\"\\x")) := by
  have hrendering : Lua.rendering (some fun _ => [.fulfill " x "])
      (quoted.codeParts.map Piece.ofPart) = .output (some "\"\\x") := by cbv
  have hpanic : Echo.isSet .null "panic" = false := rfl
  have hsilent : Echo.isSet .null "silent" = false := rfl
  rw [← hrendering]
  exact Handler.trial_lua_eq_trial_echo plain_quoted hpanic hsilent .empty .isolated
    (some fun _ => [.fulfill " x "]) ⟨"."⟩ none none

end Stencil
