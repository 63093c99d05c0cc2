import Stencil.Context
import Stencil.Proofs.Template.CodePart
set_option autoImplicit false

/-!
# The language of a template

A language has several spellings and one identifier, under which its handler is registered. A
`language` directive is brought to the identifier, whatever the letter case of its value; the
default of the configuration is taken as it is written. So the language of a parsed template is an
identifier if a directive names it, and otherwise only if the configuration holds an identifier.

## Main definitions

* `Stencil.Template.Spells` — a name is one of the spellings of a language.
* `Stencil.Template.CompilationUnit.NamesLanguage`, `writtenLanguage` — a directive names the
  language, and the language as it is written there or in the configuration.
* `Stencil.Registry.offer` — the handler that is found for a language.

## Main results

* `Stencil.Template.normalizeLanguage_of_spells` — a spelling becomes the identifier.
* `Stencil.Template.normalizeLanguage_normalizeLanguage` — the one spelling is its own.
* `Stencil.Context.language_normalized_iff` — when the language of a template is an identifier, and
  which handler is then found.
-/

namespace Stencil

namespace Template

open Stencil.Text

/-! ## Spellings -/

/-- **A name is a spelling of a language,** in any letter case. -/
def Spells (identifier name : String) : Prop :=
  ∃ spellings, (identifier, spellings) ∈ languageAliases ∧
    String.ofList (upperAscii name.toList) ∈ spellings

/-- No name spells two languages. -/
theorem Spells.unique {i j name : String} (hi : Spells i name) (hj : Spells j name) : i = j := by
  obtain ⟨si, hi, hni⟩ := hi
  obtain ⟨sj, hj, hnj⟩ := hj
  have hapart : ∀ e ∈ languageAliases, ∀ f ∈ languageAliases, ∀ s ∈ e.2, s ∈ f.2 → e.1 = f.1 := by
    decide
  exact hapart _ hi _ hj _ hni hnj

/-- An identifier is a spelling of its language. -/
theorem Spells.identifier {i name : String} (h : Spells i name) : Spells i i := by
  obtain ⟨spellings, hi, -⟩ := h
  have hself : ∀ e ∈ languageAliases, String.ofList (upperAscii e.1.toList) ∈ e.2 := by decide
  exact ⟨spellings, hi, hself _ hi⟩

/-- A name is a spelling of the language that it becomes, or it is none and stays. -/
theorem normalizeLanguage_cases (name : String) :
    Spells (normalizeLanguage name) name ∨
      (∀ i, ¬ Spells i name) ∧ normalizeLanguage name = name := by
  rw [normalizeLanguage]
  cases hfind : languageAliases.find?
      fun entry => entry.2.contains (String.ofList (upperAscii name.toList)) with
  | none =>
    refine .inr ⟨fun i => ?_, rfl⟩
    rintro ⟨spellings, hi, hname⟩
    exact List.find?_eq_none.mp hfind _ hi (List.contains_iff_mem.mpr hname)
  | some entry =>
    have hname := List.find?_some hfind
    exact .inl ⟨entry.2, List.mem_of_find?_eq_some hfind, List.contains_iff_mem.mp hname⟩

/-- A spelling becomes the identifier of its language. -/
theorem normalizeLanguage_of_spells {i name : String} (h : Spells i name) :
    normalizeLanguage name = i := by
  rcases normalizeLanguage_cases name with hspells | ⟨hnone, -⟩
  · exact hspells.unique h
  · exact absurd h (hnone i)

/-- **The one spelling of a name** is its own one spelling. -/
theorem normalizeLanguage_normalizeLanguage (name : String) :
    normalizeLanguage (normalizeLanguage name) = normalizeLanguage name := by
  rcases normalizeLanguage_cases name with hspells | ⟨-, hself⟩
  · exact normalizeLanguage_of_spells hspells.identifier
  · rw [hself, hself]

/-! ## The language of a unit -/

namespace CompilationUnit

/-- **A directive names the language** of a template. -/
def NamesLanguage (unit : CompilationUnit) : Prop := ∃ d ∈ unit.directives, d.key = "language"

/-- **The language as it is written:** in the last directive that names it, or in the
configuration. -/
def writtenLanguage (config : ParserConfig) (unit : CompilationUnit) : String :=
  ((Directive.values languageKeys unit.directives).getLast?).getD config.defaultLanguage

/-- There is a value for the language exactly if a directive names it. -/
theorem namesLanguage_iff (unit : CompilationUnit) :
    unit.NamesLanguage ↔ Directive.values languageKeys unit.directives ≠ [] := by
  simp [NamesLanguage, Directive.values, languageKeys, List.filter_eq_nil_iff]

end CompilationUnit

/-- **The language of a unit** is the one spelling of the written language if a directive names it,
and otherwise the default as it is. -/
theorem language_of_parse {config : ParserConfig} {source : String} {unit : CompilationUnit}
    (h : parse config source = .ok unit) :
    (unit.NamesLanguage → unit.language = normalizeLanguage (unit.writtenLanguage config)) ∧
    (¬ unit.NamesLanguage → unit.language = config.defaultLanguage ∧
      unit.writtenLanguage config = config.defaultLanguage) := by
  have hlanguage : unit.language =
      languageOf (Directive.values languageKeys unit.directives) config.defaultLanguage :=
    (drawnFrom_of_parse h).2.language
  rw [CompilationUnit.namesLanguage_iff, CompilationUnit.writtenLanguage, hlanguage, languageOf]
  cases hlast : (Directive.values languageKeys unit.directives).getLast? with
  | none => simp [List.getLast?_eq_none_iff.mp hlast]
  | some name =>
    have hne : Directive.values languageKeys unit.directives ≠ [] := by
      intro hnil
      rw [hnil] at hlast
      cases hlast
    simp [hne]

end Template

open Template Text

/-- **The handler that is found for a language,** with what it is given. -/
def Registry.offer {σ : Type} (registry : Registry σ) (language : String) (input : HandlerInput) :
    Except Error (Handler σ × HandlerInput) :=
  match registry.find? language with
  | none => .error (.unsupportedLanguage language registry.languages)
  | some handler => .ok (handler, input)

namespace Context

variable {σ : Type} {c : Context σ}

/-- **The handler of a template** is the one for its language. -/
theorem prepare_of_parse {source : String} {unit : CompilationUnit}
    (h : parse c.parserConfig source = .ok unit) (registry : Registry σ) {stateType : StateType}
    (hname : Text.isBlankString stateType.name = false) (parameterName : String) :
    c.prepare registry source stateType parameterName =
      registry.offer unit.language (.ofUnit unit stateType parameterName) := by
  rw [prepare, hname, h, Registry.offer]
  rfl

/-- **The language of a template is an identifier** exactly if a directive names it or the default
of the configuration is one. It is then the identifier of the language that is written, in whatever
letter case, and the handler is looked up under it. In any other case the handler is looked up
under the default as it is written. -/
theorem language_normalized_iff {source : String} {unit : CompilationUnit}
    (h : parse c.parserConfig source = .ok unit) :
    (normalizeLanguage unit.language = unit.language ↔
      unit.NamesLanguage ∨
        normalizeLanguage c.parserConfig.defaultLanguage = c.parserConfig.defaultLanguage) ∧
    (normalizeLanguage unit.language = unit.language →
      ∀ identifier, Spells identifier (unit.writtenLanguage c.parserConfig) →
        unit.language = identifier ∧
        ∀ (registry : Registry σ) (stateType : StateType) (parameterName : String),
          Text.isBlankString stateType.name = false →
            c.prepare registry source stateType parameterName =
              registry.offer identifier (.ofUnit unit stateType parameterName)) ∧
    (¬ unit.NamesLanguage → unit.language = c.parserConfig.defaultLanguage) := by
  obtain ⟨hnamed, hdefault⟩ := language_of_parse h
  by_cases hn : unit.NamesLanguage
  · have hlanguage := hnamed hn
    refine ⟨?_, fun _ identifier hspells => ?_, fun hno => absurd hn hno⟩
    · rw [hlanguage, normalizeLanguage_normalizeLanguage]
      simp [hn]
    · have hid : unit.language = identifier := hlanguage.trans (normalizeLanguage_of_spells hspells)
      exact ⟨hid, fun registry stateType parameterName hname =>
        hid ▸ prepare_of_parse h registry hname parameterName⟩
  · obtain ⟨hlanguage, hwritten⟩ := hdefault hn
    refine ⟨by simp [hlanguage, hn], fun hself identifier hspells => ?_, fun _ => hlanguage⟩
    rw [hwritten, ← hlanguage] at hspells
    have hid : unit.language = identifier := hself.symm.trans (normalizeLanguage_of_spells hspells)
    exact ⟨hid, fun registry stateType parameterName hname =>
      hid ▸ prepare_of_parse h registry hname parameterName⟩

/-- The directive `<%@ language LUA54 %>` names the identifier `Lua5.4`, and a handler is looked up
under it; without a directive the default `lua` is not brought to the identifier. -/
theorem language_normalized_directive :
    let config : ParserConfig := { defaultLanguage := "lua" }
    (∃ unit, parse config "<%@ language LUA54 %>" = .ok unit ∧ unit.language = "Lua5.4" ∧
      ({ parserConfig := config } : Context Empty).prepare .empty "<%@ language LUA54 %>"
        ⟨"S", "app", []⟩ "" = .error (.unsupportedLanguage "Lua5.4" [])) ∧
    ∃ unit, parse config "a" = .ok unit ∧ unit.language = "lua" ∧
      normalizeLanguage unit.language ≠ unit.language := by
  intro config
  constructor
  · have hblock : IsBlock "<%@ language LUA54 %>".toList := ⟨"@ language LUA54 ".toList, by decide,
      (findText_eq_some_iff.mp (by decide : findText ['%', '>'] _ = some (_, []))).2⟩
    obtain ⟨p, hsplit, htext⟩ := split_singleton (.inr hblock)
    have hconf : IsConfiguration p.text.toList := by
      rw [htext, ← classify_eq_configuration_iff]
      decide
    have hdeclares : Declares p ⟨"language", "LUA54"⟩ := by
      rw [Declares, htext]
      decide
    obtain ⟨unit, hunit, hdirectives⟩ : ∃ unit, parse config "<%@ language LUA54 %>" = .ok unit ∧
        unit.directives = [⟨"language", "LUA54"⟩] :=
      ⟨_, parse_eq_extend config hsplit (by simpa [hconf] using hdeclares) (by simp [settingKeys]),
        rfl⟩
    have hnames : unit.NamesLanguage := ⟨_, by rw [hdirectives]; exact List.mem_cons_self, rfl⟩
    have hwritten : unit.writtenLanguage config = "LUA54" := by
      rw [CompilationUnit.writtenLanguage, hdirectives]
      rfl
    obtain ⟨hself, hfound, -⟩ :=
      language_normalized_iff (c := ({ parserConfig := config } : Context Empty)) hunit
    obtain ⟨hlanguage, hoffer⟩ := hfound (hself.mpr (.inl hnames)) "Lua5.4" (by
      rw [hwritten]
      exact ⟨["LUA", "LUA5.4", "LUA54"], by decide, by decide⟩)
    exact ⟨unit, hunit, hlanguage, hoffer .empty ⟨"S", "app", []⟩ "" (by decide)⟩
  · have hlit : IsLiteral "a".toList := ⟨by decide, findText_eq_none_iff.mp (by decide)⟩
    obtain ⟨p, hsplit, htext⟩ := split_singleton (.inl hlit)
    have hcode : ¬ IsConfiguration p.text.toList := by
      rw [htext, ← classify_eq_configuration_iff]
      decide
    obtain ⟨unit, hunit, hdirectives⟩ : ∃ unit, parse config "a" = .ok unit ∧
        unit.directives = [] :=
      ⟨_, parse_eq_extend config hsplit (by simp [hcode]) (by simp), rfl⟩
    obtain ⟨-, -, hdefault⟩ :=
      language_normalized_iff (c := ({ parserConfig := config } : Context Empty)) hunit
    have hlanguage : unit.language = "lua" :=
      hdefault (by simp [CompilationUnit.NamesLanguage, hdirectives])
    exact ⟨unit, hunit, hlanguage, by rw [hlanguage]; decide⟩

end Context

end Stencil
