import Stencil.Include
import Stencil.Reference
import Stencil.Template.Unit
set_option autoImplicit false

/-!
# Handlers

A handler serves one language: it writes a program for a parsed template, and it compiles the
program into an artifact that can be rendered.

## Main definitions

* `Stencil.HandlerInput` — what a program is made from.
* `Stencil.Handler` — the two steps of a language, and where its libraries are.
* `Stencil.Handler.build` — both steps, with the references between them.
* `Stencil.Outcome`, `Stencil.Renderable` — rendering an artifact.
-/

namespace Stencil

/-! ## Programs -/

/-- **What a program is made from.** -/
structure HandlerInput where
  language : String
  imports : NameSet
  references : NameSet
  codeParts : List String
  stateType : StateType
  parameterName : String

namespace HandlerInput

/-- The input for a parsed template. -/
def ofUnit (unit : Template.CompilationUnit) (stateType : StateType) (parameterName : String) :
    HandlerInput where
  language := unit.language
  imports := unit.imports
  references := unit.references
  codeParts := unit.codeParts
  stateType := stateType
  parameterName := parameterName

/-- Whether each property of the state is a parameter of its own; otherwise the whole state is
one. -/
def isPropertyMode (input : HandlerInput) : Bool := Text.isBlankString input.parameterName

end HandlerInput

/-- What a backend is given: a program and the libraries that it may use. -/
structure CompileRequest where
  language : String
  program : String
  references : List LibraryReference
  deriving DecidableEq, Repr

/-- **A handler** whose artifacts are of type `σ`. -/
structure Handler (σ : Type) where
  /-- Writes the program. -/
  generate : HandlerInput → Except Error String
  /-- Compiles a program, or reports what is wrong with it. -/
  compile : FileSystem → CompileRequest → Except (List Diagnostic) σ
  /-- Where libraries are looked for. -/
  runtimeDir : Option Path
  /-- Whether the references of each compilation are kept on record. -/
  records : Bool := false

/-- A compiled program. -/
structure Compiled (σ : Type) where
  program : String
  artifact : σ

namespace Handler

variable {σ : Type}

/-- The request to the backend for an input. -/
def request (h : Handler σ) (fs : FileSystem) (input : HandlerInput) :
    Except Error CompileRequest :=
  if Text.isBlankString input.language then
    .error (.invalidArgument "language" "must not be blank")
  else if Text.isBlankString input.stateType.name then
    .error (.invalidArgument "state_type" "type name must not be blank")
  else (h.generate input).map fun program =>
    { language := input.language
      program
      references := resolveReferences fs h.runtimeDir input.stateType input.references.toList }

/-- **Both steps:** writes the program, resolves the references, and compiles. -/
def build (h : Handler σ) (fs : FileSystem) (input : HandlerInput) :
    Except Error (Compiled σ) :=
  match h.request fs input with
  | .error e => .error e
  | .ok request => match h.compile fs request with
    | .ok artifact => .ok ⟨request.program, artifact⟩
    | .error diagnostics => .error (.rejected ⟨request.program, diagnostics⟩)

end Handler

/-! ## Rendering -/

/-- **What comes of rendering.** -/
inductive Outcome where
  /-- A text, or none at all. -/
  | output (text : Option String)
  | failed (e : Error)
  /-- The artifact broke down in a way that is not an error. -/
  | panicked (message : String)
  deriving DecidableEq, Repr

/-- **Artifacts that can be rendered** for a state, with or without a resolver for includes. An
artifact may keep something from one rendering for the next. -/
class Renderable (σ : Type) where
  render : σ → Json → Option Resolver → Outcome × σ

end Stencil
