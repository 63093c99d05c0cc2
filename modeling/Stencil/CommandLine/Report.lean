import Stencil.Backend
import Stencil.CommandLine.Invocation
import Stencil.Json.Reader
set_option autoImplicit false

/-!
# Reports of commands

What a command prints, and whether it succeeds.

## Main definitions

* `Stencil.CommandLine.Report` — the output of a command.
* `Stencil.CommandLine.Problem` — why a command stops.
* `Stencil.CommandLine.report` — the report of an invocation.
* `Stencil.CommandLine.run` — the report of a command line.
-/

namespace Stencil.CommandLine

/-! ## Reports -/

/-- **The output of a command:** a text, and lines about how it went. -/
structure Report where
  exit : Nat
  output : String
  notes : List String
  deriving DecidableEq, Repr

/-- **Why a command stops.** -/
inductive Problem where
  | unreadable (what : String) (path : String)
  | invalidToml (path : Path)
  | invalidJson (path : Path)
  | includeWithoutFile (text : String)
  | includeWithoutName (text : String)
  /-- An error of the library by itself. -/
  | error (e : Error)
  /-- An error of the library, for a template. -/
  | templateError (template : Path) (e : Error)
  /-- A template that is malformed. -/
  | malformed (template : Path) (e : Template.SyntaxError)
  /-- A program that was rejected with a number of diagnostics. -/
  | rejected (template : Path) (count : Nat)
  deriving DecidableEq, Repr

/-- **The text of a problem.** -/
def Problem.message : Problem → String
  | unreadable what path => s!"Failed to read {what} {path}"
  | invalidToml path => s!"Invalid TOML in {path.text}: the document is malformed"
  | invalidJson path => s!"Invalid JSON in {path.text}: the text is malformed"
  | includeWithoutFile text => s!"Invalid include '{text}': expected NAME=FILE"
  | includeWithoutName text => s!"Invalid include '{text}': name is empty"
  | error e => e.message
  | templateError template e => s!"{template.text}: {e.message}"
  | malformed template e => s!"{template.text}: {e.message}"
  | rejected template count =>
    s!"compilation of {template.text} failed with {count} diagnostic(s)"

/-- The report of a command that stops, behind what it has printed so far. -/
def stopped (output : String) (notes : List String) (p : Problem) : Report :=
  ⟨1, output, notes ++ ["Error: " ++ p.message]⟩

/-- A note on progress, which is made if it is asked for. -/
def progress (verbose : Bool) (sign word : String) (template : Path) : List String :=
  if verbose then [sign ++ " " ++ word ++ " " ++ template.text] else []

/-- The notes on a rejected program. -/
def diagnosticNotes (r : Rejection) : List String := r.diagnostics.map fun d => "✗ " ++ d.text

/-! ## What a command reads -/

/-- The text of a file. -/
def readFile (fs : FileSystem) (what path : String) : Except Problem String :=
  match fs.readText ⟨path⟩ with
  | .ok text => .ok text
  | .error _ => .error (.unreadable what path)

/-- The configuration: that of the file that is named, or of the nearest one upwards from the
template. -/
def loadConfig (fs : FileSystem) (i : Invocation) : Except Problem Config :=
  let config := match i.config with
    | some path => Config.load fs path
    | none => Config.discover fs (i.template.parent.getD ⟨""⟩)
  match config with
  | .ok c => .ok c
  | .error e => .error (.error e)

/-- Whether a state file is in TOML, by its extension. -/
def isToml (path : Path) : Bool :=
  (path.extension.map fun e => Text.eqIgnoringCase e "toml".toList).getD false

/-- **The state** of a file, or an empty table if no file is named. -/
def loadState (fs : FileSystem) : Option Path → Except Problem Json
  | none => .ok (.object [])
  | some path => match readFile fs "state file" path.text with
    | .error p => .error p
    | .ok text =>
      if isToml path then match Toml.parse text with
        | some t => .ok t.toJson
        | none => .error (.invalidToml path)
      else match Json.parse text with
        | some j => .ok j
        | none => .error (.invalidJson path)

/-- The name and the content of an include, from a name and a file with an equals sign
between. -/
def loadInclude (fs : FileSystem) (text : String) : Except Problem (String × String) :=
  match Text.splitFirst '=' text.toList with
  | (_, none) => .error (.includeWithoutFile text)
  | (name, some file) =>
    if Text.allBlank name then .error (.includeWithoutName text)
    else (readFile fs "include file" (String.ofList file)).map fun content =>
      (String.ofList (Text.trim name), content)

/-! ## The commands -/

/-- A set of names in one line. -/
def nameList (names : NameSet) : String :=
  if names.toList.isEmpty then "(none)" else ", ".intercalate names.toList

/-- A parsed template as lines. -/
def unitLines (unit : Template.CompilationUnit) : List String :=
  [s!"Language: {unit.language}", s!"Imports: {nameList unit.imports}",
   s!"References: {nameList unit.references}", s!"Code parts: {unit.codeParts.length}"] ++
  unit.codeParts.zipIdx.map fun (part, n) => s!"  [{n}] {Text.quoted part}"

/-- A parsed template as a tree of data. -/
def unitTree (unit : Template.CompilationUnit) : Json :=
  .object
    [("language", .string unit.language), ("imports", .strings unit.imports.toList),
     ("references", .strings unit.references.toList), ("code_parts", .strings unit.codeParts),
     ("directives", .array (unit.directives.map fun d =>
       .object [("key", .string d.key), ("value", .string d.value)]))]

/-- **The report of `parse`.** -/
def reportParse (i : Invocation) (json : Bool) (content : String) (config : Config) : Report :=
  let notes := progress i.verbose "→" "Parsing" i.template
  match Template.parse config.parser content with
  | .error e => stopped "" notes (.malformed i.template e)
  | .ok unit =>
    if json then ⟨0, (unitTree unit).pretty ++ "\n", notes⟩
    else ⟨0, String.join ((unitLines unit).map (· ++ "\n")), notes⟩

/-- The one language that the commands know. -/
def registry (programDir : Path) (config : Config) : Registry Artifact :=
  NameMap.empty.insert Template.lua54 (Backend.lua.handler programDir config.handler)

/-- The compilation of a template for a state. -/
def compileFor (fs : FileSystem) (programDir : Path) (config : Config) (content : String)
    (state : Json) (options : StateOptions) (includes : Option Resolver) :
    Compilation Artifact :=
  let context : Context Artifact := { parserConfig := config.parser, includes }
  context.compile fs (registry programDir config) content (.ofTree state) options.parameter

/-- **The report of `source`.** -/
def reportSource (fs : FileSystem) (programDir : Path) (i : Invocation) (options : StateOptions)
    (content : String) (config : Config) : Report :=
  match loadState fs options.state with
  | .error p => stopped "" [] p
  | .ok state =>
    let c := compileFor fs programDir config content state options none
    match c.result with
    | .ok () =>
      ⟨0, c.context.holding.program?.getD "", progress i.verbose "✓" "Compiled" i.template⟩
    | .error (.rejected r) =>
      stopped r.program (diagnosticNotes r) (.rejected i.template r.diagnostics.length)
    | .error e => stopped "" [] (.error e)

/-- The notes on an error of a compilation. -/
def compileNotes : Error → List String
  | .rejected r => diagnosticNotes r
  | _ => []

/-- **The report of `render`.** -/
def reportRender (fs : FileSystem) (programDir : Path) (i : Invocation) (options : StateOptions)
    (includes : List String) (content : String) (config : Config) : Report :=
  match loadState fs options.state, includes.mapM (loadInclude fs) with
  | .error p, _ => stopped "" [] p
  | _, .error p => stopped "" [] p
  | .ok state, .ok entries =>
    let resolver := StaticIncludes.resolver (NameMap.ofList entries)
    let c := compileFor fs programDir config content state options (some resolver)
    match c.result with
    | .error e => stopped "" (compileNotes e) (.templateError i.template e)
    | .ok () =>
      let notes := progress i.verbose "→" "Rendering" i.template
      match (c.context.execute state).1 with
      | .output text => ⟨0, text.getD "", notes⟩
      | .failed e => stopped "" notes (.error e)
      | .panicked message => stopped "" notes (.error (.renderFailed message))

/-- **The report of an invocation.** The template is read before its configuration. -/
def report (fs : FileSystem) (programDir : Path) (i : Invocation) : Report :=
  match readFile fs "template" i.template.text with
  | .error p => stopped "" [] p
  | .ok content => match loadConfig fs i with
    | .error p => stopped "" [] p
    | .ok config => match i.command with
      | .parse json => reportParse i json content config
      | .source options => reportSource fs programDir i options content config
      | .render options includes =>
        reportRender fs programDir i options includes content config

/-- **The report of a command line;** none if it is no invocation. -/
def run (fs : FileSystem) (programDir : Path) (fallback : Option String) (args : List String) :
    Option Report :=
  (Invocation.read fallback args).map (report fs programDir)

end Stencil.CommandLine
