import Stencil.NameMap
import Stencil.Template.Directive
set_option autoImplicit false

/-!
# Compilation units

A template is parsed in two steps: it is split into parts, and its configuration directives are
taken out and applied. What remains is the list of parts from which a program is made, together
with the settings that the directives and the defaults give.

## Main definitions

* `Stencil.Template.ParserConfig` — the defaults for language, imports and library suffix.
* `Stencil.Template.CompilationUnit` — the parsed template.
* `Stencil.Template.Setting` — what one directive asks for.
* `Stencil.Template.CompilationUnit.ofParts`, `parse` — from parts, and from a source.
-/

namespace Stencil.Template

/-- **Defaults of the parser.** -/
structure ParserConfig where
  defaultLanguage : String := lua54
  defaultImports : List String := ["string", "table", "codet"]
  librarySuffix : String := ".lua"
  deriving DecidableEq, Repr

/-- **A parsed template.** -/
structure CompilationUnit where
  /-- The language in which the blocks are written. -/
  language : String
  /-- The default imports and those of the directives. -/
  imports : NameSet
  /-- The libraries that the directives name, each with its suffix. -/
  references : NameSet
  /-- The texts of all parts that are not configuration directives, in order. -/
  codeParts : List String
  /-- The configuration directives, in order. -/
  directives : List Directive
  /-- All parts, in order. -/
  parts : List Part

/-! ## Settings -/

/-- **What a configuration directive asks for.** -/
inductive Setting where
  | use (name : String)
  | language (name : String)
  | reference (name : String)
  deriving DecidableEq, Repr

/-- The setting of a directive; none if the key means nothing. -/
def Directive.setting (d : Directive) : Option Setting :=
  if d.key ∈ ["use", "using", "import"] then some (.use d.value)
  else if d.key = "language" then some (.language d.value)
  else if d.key ∈ ["ref", "reference", "references"] then some (.reference d.value)
  else none

namespace CompilationUnit

/-- The unit of a template without parts. -/
def initial (config : ParserConfig) : CompilationUnit where
  language := config.defaultLanguage
  imports := .ofList config.defaultImports
  references := .empty
  codeParts := []
  directives := []
  parts := []

/-- The unit with one more setting. -/
def apply (config : ParserConfig) (unit : CompilationUnit) : Setting → CompilationUnit
  | .use name => { unit with imports := unit.imports.insert name }
  | .language name => { unit with language := normalizeLanguage name }
  | .reference name =>
    { unit with references := unit.references.insert (withLibrarySuffix name config.librarySuffix) }

/-- The unit with one more part behind it. -/
def addPart (config : ParserConfig) (unit : CompilationUnit) (p : Part) :
    Except SyntaxError CompilationUnit :=
  if p.kind = some .configuration then
    match Directive.ofPart p with
    | .error e => .error e
    | .ok d => match d.setting with
      | none =>
        .error (.unknownDirective d.key (String.ofList (interior p.text.toList)) p.position p.line)
      | some setting =>
        let unit := unit.apply config setting
        .ok { unit with directives := unit.directives ++ [d], parts := unit.parts ++ [p] }
  else .ok { unit with codeParts := unit.codeParts ++ [p.text], parts := unit.parts ++ [p] }

/-- **The unit of a list of parts.** The first directive that is malformed or unknown is the
error. -/
def ofParts (config : ParserConfig) (parts : List Part) : Except SyntaxError CompilationUnit :=
  parts.foldlM (addPart config) (initial config)

end CompilationUnit

/-- **The unit of a source.** -/
def parse (config : ParserConfig) (source : String) : Except SyntaxError CompilationUnit :=
  match split source with
  | .error e => .error e
  | .ok parts => CompilationUnit.ofParts config parts

end Stencil.Template
