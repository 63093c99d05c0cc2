import Stencil.Config
import Stencil.Handler
import Stencil.Lua.Chunk
import Stencil.Lua.Program
set_option autoImplicit false

/-!
# Templates in Lua

A program is compiled by running it: the referenced files are run first, and what they give are
its modules; what the program gives is the function that renders. The machine lives on from one
rendering to the next.

## Main definitions

* `Stencil.Lua.compile` — from a program to a session.
* `Stencil.Lua.Session` — a machine with the function that renders.
* `Stencil.Lua.Session.render` — renders for a state.
* `Stencil.Handler.lua` — the handler of the language.
-/

namespace Stencil.Lua

/-- **A machine with the function that renders,** and the table through which programs reach the
host. -/
structure Session where
  machine : Machine
  entry : Value
  support : Nat
  steps : Nat

/-! ## Compiling -/

/-- The version that programs find in the support table. -/
def version : String := "0.1.0"

/-- The entry of the support table that asks the host for content. -/
def includeKey : Value := .text "include"

/-- **The number of steps** of a program: more than any that ends in a reasonable time takes, and
more than its text is long. -/
def stepLimit (program : String) : Nat := (1 <<< 40) + program.length

/-- Lets the support table ask for content. -/
def bindIncludes (support : Nat) (asked : Option (Option Resolver)) : Run Unit := do
  Run.setField support includeKey (← Run.newInclusion asked)

/-- A new support table, of which content cannot be asked yet. -/
def newSupport : Run Nat := do
  let support := (← Run.get).tables.size
  let _ ← Run.newTable { entries := [(.text "version", .text version)] }
  bindIncludes support none
  return support

/-- The name under which a program finds the module of a file. -/
def moduleName (path : Path) : String :=
  match path.stem with
  | some stem => String.ofList stem
  | none => path.text

/-- The diagnostic about a reference. -/
def referenceError (r : LibraryReference) (message : String) : Diagnostic :=
  .error s!"reference '{r.name}': {message}"

/-- The value that a chunk gives, or its failure. -/
def runChunk (c : Chunk) (steps : Nat) (args : Arguments) : Run (Except Failure Value) := do
  match c.read with
  | .error e => return .error e
  | .ok b => match ← Run.protect (c.run steps b args) with
    | .error v => return .error (.ofValue v)
    | .ok values => return .ok (values.headD .nil)

/-- **Runs a referenced file** and puts what it gives among the modules; a file that gives nothing
counts as `true`. -/
def loadReference (fs : FileSystem) (steps modules : Nat) (r : LibraryReference) :
    Run (Option Diagnostic) := do
  match fs.readText r.path with
  | .error e => return some (referenceError r s!"cannot read {r.path.text}: {e.message}")
  | .ok source => match ← runChunk (.file r.path source) steps [] with
    | .error e => return some (referenceError r (String.ofList (firstLine e.text.toList)))
    | .ok v => do
      Run.setField modules (.text (moduleName r.path)) (if v.isNil then .bool true else v)
      return none

/-- Runs the referenced files in order; what is wrong with them. -/
def loadReferences (fs : FileSystem) (steps modules : Nat) :
    List LibraryReference → Run (List Diagnostic)
  | [] => return []
  | r :: rs => do
    let d ← loadReference fs steps modules r
    return d.toList ++ (← loadReferences fs steps modules rs)

/-- The function that renders, from a program and its modules. -/
def runProgram (program : Chunk) (b : Block) (steps modules : Nat) :
    Run (Except (List Diagnostic) Value) := do
  match ← Run.protect (program.run steps b [.table modules]) with
  | .error v => return .error [(Failure.ofValue v).diagnostic]
  | .ok values =>
    let entry := values.headD .nil
    if entry.isFunction then return .ok entry
    else return .error [.error s!"error converting Lua {entry.typeName} to function"]

/-- Runs the referenced files and the program. A file that fails keeps the program from running,
and so does a program that is not well formed; all these are reported together. -/
def start (fs : FileSystem) (request : CompileRequest) :
    Run (Except (List Diagnostic) (Value × Nat)) := do
  let steps := stepLimit request.program
  let support ← newSupport
  let modules := (← Run.get).tables.size
  let _ ← Run.newTable { entries := [(.text supportName, .table support)] }
  let wrong ← loadReferences fs steps modules (request.references.filter fun r => !r.isHost)
  let program := Chunk.template request.program
  match program.read with
  | .error e => return .error (wrong ++ [e.diagnostic])
  | .ok b =>
    if wrong.isEmpty then
      return (← runProgram program b steps modules).map fun entry => (entry, support)
    else return .error wrong

/-- The failure of a program whose steps are used up. -/
def endless : Failure := .runtime "the program does not end"

/-- **From a program to a session.** -/
def compile (fs : FileSystem) (request : CompileRequest) : Except (List Diagnostic) Session :=
  match start fs request Machine.fresh with
  | .done (.ok (entry, support)) machine =>
    .ok { machine, entry, support, steps := stepLimit request.program }
  | .done (.error ds) _ => .error ds
  | .raised v _ => .error [(Failure.ofValue v).diagnostic]
  | .exhausted => .error [endless.diagnostic]

/-! ## Rendering -/

mutual

/-- **The value for a tree of data.** Null is `nil`; a number that no integer holds is a float. -/
def treeValue : Json → Run Value
  | .null => return .nil
  | .bool b => return .bool b
  | .int n => match Number.ofInt? n with
    | some i => return .int i
    | none => return .float (Float.ofInt n)
  | .float x => return .float x
  | .string s => return .text s
  | .array items => do Run.newTable { items := (← treeValues items).toArray }
  | .object entries => do Run.newTable { entries := ← treeEntries entries }

/-- The values for the items of a list. -/
def treeValues : List Json → Run (List Value)
  | [] => return []
  | t :: ts => do
    let v ← treeValue t
    return v :: (← treeValues ts)

/-- The entries for those of a table; those with null are left out. -/
def treeEntries : List (String × Json) → Run (List (Value × Value))
  | [] => return []
  | (k, t) :: rest => do
    let v ← treeValue t
    let es ← treeEntries rest
    return if v.isNil then es else (.text k, v) :: es

end

/-- The error that a failure of a rendering is. An include that failed is its own error. -/
def Failure.renderError : Failure → Error
  | .host (.unresolvedInclude name) => .unresolvedInclude name
  | .host (.invalidArgument name reason) => .invalidArgument name reason
  | f => .renderFailed f.text

/-- The outcome for the first value that a rendering gave: `nil` is no text, a string or a number
its text. -/
def outcomeOf (v : Value) : Outcome :=
  match v.isNil, v.bytes? with
  | true, _ => .output none
  | false, some b => match b.toText? with
    | some text => .output (some text)
    | none => .failed (.renderFailed "error converting Lua string to String: invalid UTF-8")
  | false, none => .failed (.renderFailed s!"error converting Lua {v.typeName} to String")

namespace Session

/-- Renders for a state, with the includes bound before and unbound afterwards. -/
def renderRun (s : Session) (state : Json) (includes : Option Resolver) :
    Run (Except Value Arguments) := do
  bindIncludes s.support (some includes)
  let v ← treeValue state
  let result ← Run.protect (call s.steps .start s.entry [v])
  bindIncludes s.support (some none)
  return result

/-- **Renders for a state.** What the program changes in its machine stays changed. -/
def render (s : Session) (state : Json) (includes : Option Resolver) : Outcome × Session :=
  match s.renderRun state includes s.machine with
  | .done (.ok values) machine => (outcomeOf (values.headD .nil), { s with machine })
  | .done (.error v) machine =>
    (.failed (Failure.ofValue v).renderError, { s with machine })
  | .raised v machine => (.failed (Failure.ofValue v).renderError, { s with machine })
  | .exhausted => (.failed endless.renderError, s)

end Session

instance : Renderable Session where
  render := Session.render

end Stencil.Lua

namespace Stencil

/-- **The handler of the language.** Libraries are looked for in the configured directory, or in
that of the program that runs. -/
def Handler.lua (programDir : Path) (config : HandlerConfig) : Handler Lua.Session where
  generate := Lua.generate
  compile := Lua.compile
  runtimeDir := some (config.runtimeDir programDir)

end Stencil
