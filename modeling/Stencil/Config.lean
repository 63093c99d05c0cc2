import Stencil.Error
import Stencil.FileSystem
import Stencil.Template.Unit
import Stencil.Toml.Reader
set_option autoImplicit false

/-!
# Configuration

Settings come from a file `codet.toml` in the directory of a template or above it. Sections and
settings that are not known are passed over.

## Main definitions

* `Stencil.HandlerConfig`, `Stencil.Config` — the settings.
* `Stencil.Config.ofToml` — the settings of a document.
* `Stencil.Config.load` — the settings of a file.
* `Stencil.Config.findFile`, `discover` — the nearest file upwards.
-/

namespace Stencil

/-- **Settings of the handlers:** where libraries are, and how much memory a program may take. -/
structure HandlerConfig where
  libraryDir : Option Path := none
  memoryLimit : Option Nat := none
  deriving DecidableEq, Repr

/-- **All settings.** -/
structure Config where
  parser : Template.ParserConfig := {}
  handler : HandlerConfig := {}
  deriving DecidableEq, Repr

/-- **The directory of the libraries:** the configured one, or the directory of the program. -/
def HandlerConfig.runtimeDir (programDir : Path) (c : HandlerConfig) : Path :=
  c.libraryDir.getD programDir

namespace Config

/-! ## From documents -/

/-- **A section of settings.** A table gives them by name, an array in order; a point in time is
a table without any of the names. -/
inductive Section where
  | named (entries : List (String × Toml))
  | ordered (items : List Toml)

/-- The section that a value is. -/
def Section.ofToml : Toml → Option Section
  | .table es => some (named es)
  | .array ts => some (ordered ts)
  | .datetime _ => some (named [])
  | _ => none

/-- A setting of a section, by its name or its place. -/
def Section.get (s : Section) (name : String) (place : Nat) : Option Toml :=
  match s with
  | named es => es.lookup name
  | ordered ts => ts[place]?

/-- A string. -/
def asString : Toml → Option String
  | .string s => some s
  | _ => none

/-- A list of strings. -/
def asStrings : Toml → Option (List String)
  | .array ts => ts.mapM asString
  | _ => none

/-- A number of bytes. -/
def asSize : Toml → Option Nat
  | .integer n => if 0 ≤ n then some n.toNat else none
  | _ => none

/-- A setting read in the given way; the default stands where it is missing. -/
def setting {α : Type} (read : Toml → Option α) (default : α) : Option Toml → Option α
  | none => some default
  | some t => read t

/-- The settings of the parser. An array gives as many as it has items. -/
def parserOfSection (s : Section) : Option Template.ParserConfig := do
  let base : Template.ParserConfig := {}
  return {
    defaultLanguage := ← setting asString base.defaultLanguage (s.get "default_language" 0)
    defaultImports := ← setting asStrings base.defaultImports (s.get "default_imports" 1)
    librarySuffix := ← setting asString base.librarySuffix (s.get "library_suffix" 2) }

/-- The settings of the handlers. -/
def handlerOfSection (s : Section) : Option HandlerConfig := do
  let dir ← setting (fun t => (asString t).map fun d => some (Path.mk d)) none
    (s.get "library_dir" 0)
  let limit ← setting (fun t => (asSize t).map some) none (s.get "memory_limit" 1)
  return ⟨dir, limit⟩

/-- **The settings of a document.** -/
def ofToml (document : Toml) : Option Config := do
  let root ← Section.ofToml document
  let parser ← setting (fun t => (Section.ofToml t).bind parserOfSection) {} (root.get "parser" 0)
  let handler ← setting (fun t => (Section.ofToml t).bind handlerOfSection) {}
    (root.get "handler" 1)
  return ⟨parser, handler⟩

/-- The settings of a text. -/
def ofText (text : String) : Except Error Config :=
  match Toml.parse text with
  | none => .error (.configuration "TOML parse error: the document is malformed")
  | some document => match ofToml document with
    | some config => .ok config
    | none => .error (.configuration "TOML parse error: a setting has the wrong type")

/-! ## From files -/

/-- The name of a configuration file. -/
def fileName : String := "codet.toml"

/-- The settings with a relative library directory taken from the directory `base`. -/
def rebase (base : Option Path) (config : Config) : Config :=
  match config.handler.libraryDir, base with
  | some dir, some base =>
    if dir.isAbsolute then config
    else { config with handler := { config.handler with libraryDir := some (base.join dir) } }
  | _, _ => config

/-- **The settings of a file.** A relative library directory is one below that of the file. -/
def load (fs : FileSystem) (path : Path) : Except Error Config :=
  match fs.readText path with
  | .error e => .error (.configuration s!"failed to read {path.text}: {e.message}")
  | .ok text => (ofText text).map (rebase path.parent)

/-- **The nearest configuration file** in a directory or above it. -/
def findFile (fs : FileSystem) (start : Path) : Option Path :=
  (start.ancestors.map fun dir => dir.join ⟨fileName⟩).find? fs.isFile

/-- The settings of the nearest file, or the defaults if there is none. -/
def discover (fs : FileSystem) (start : Path) : Except Error Config :=
  match findFile fs start with
  | some path => load fs path
  | none => .ok {}

end Config

end Stencil
