import Stencil.Registry
import Stencil.HostValue
set_option autoImplicit false

/-!
# Contexts

A context compiles one template at a time, holds what came of it, and renders it for any number
of states.

## Main definitions

* `Stencil.Runner` — what happens when an artifact breaks down.
* `Stencil.Holding` — what a context holds after its last compilation.
* `Stencil.Context` — the holding, the resolver for includes, and the settings.
* `Stencil.Context.compile`, `execute` — the two operations.
-/

namespace Stencil

/-- **What happens when an artifact breaks down:** the breakdown is left to the caller, or it is
made an error. -/
inductive Runner where
  | inProcess
  | isolated
  deriving DecidableEq, Repr

/-- The outcome of a rendering under a runner. -/
def Runner.run : Runner → Outcome → Outcome
  | isolated, .panicked message => .failed (.renderFailed s!"template code panicked: {message}")
  | _, outcome => outcome

/-- **What a context holds.** -/
inductive Holding (σ : Type) where
  | nothing
  /-- The program that the backend rejected. -/
  | rejected (program : String)
  | compiled (language program : String) (artifact : σ)

namespace Holding

variable {σ : Type}

/-- Whether there is a compiled template. -/
def isCompiled : Holding σ → Bool
  | compiled .. => true
  | _ => false

/-- The language of the compiled template. -/
def language? : Holding σ → Option String
  | compiled language _ _ => some language
  | _ => none

/-- The program of the last compilation, if it came that far. -/
def program? : Holding σ → Option String
  | nothing => none
  | rejected program => some program
  | compiled _ program _ => some program

end Holding

/-- **A context.** -/
structure Context (σ : Type) where
  runner : Runner := .isolated
  parserConfig : Template.ParserConfig := {}
  includes : Option Resolver := none
  holding : Holding σ := .nothing

/-- What comes of a compilation: the context after it, whether it succeeded, and the references
that went on record. -/
structure Compilation (σ : Type) where
  context : Context σ
  result : Except Error Unit
  recorded : List LibraryReference

namespace Context

variable {σ : Type}

/-! ## Includes -/

/-- The context with a resolver. -/
def setIncludes (c : Context σ) (resolver : Resolver) : Context σ :=
  { c with includes := some resolver }

/-- The context without a resolver. -/
def clearIncludes (c : Context σ) : Context σ := { c with includes := none }

/-! ## Compilation -/

/-- **What a compilation needs before the backend:** the handler and its input. A blank type name
is the first thing to fail, then the template, then the language. -/
def prepare (c : Context σ) (registry : Registry σ) (content : String) (stateType : StateType)
    (parameterName : String) : Except Error (Handler σ × HandlerInput) :=
  if Text.isBlankString stateType.name then
    .error (.invalidArgument "state_type" "type name must not be blank")
  else match Template.parse c.parserConfig content with
    | .error e => .error (.template e)
    | .ok unit => match registry.find? unit.language with
      | none => .error (.unsupportedLanguage unit.language registry.languages)
      | some handler => .ok (handler, .ofUnit unit stateType parameterName)

/-- What is held after a compilation. -/
def holdingOf (language : String) : Except Error (Compiled σ) → Holding σ
  | .ok compiled => .compiled language compiled.program compiled.artifact
  | .error (.rejected r) => .rejected r.program
  | .error _ => .nothing

/-- The references that a handler keeps on record. -/
def recordedBy (h : Handler σ) (fs : FileSystem) (input : HandlerInput) :
    List LibraryReference :=
  match h.records, h.request fs input with
  | true, .ok request => request.references
  | _, _ => []

/-- **Compiles a template.** Whatever was held before is dropped. -/
def compile (c : Context σ) (fs : FileSystem) (registry : Registry σ) (content : String)
    (stateType : StateType) (parameterName : String) : Compilation σ :=
  match c.prepare registry content stateType parameterName with
  | .error e => ⟨{ c with holding := .nothing }, .error e, []⟩
  | .ok (handler, input) =>
    let compiled := handler.build fs input
    { context := { c with holding := holdingOf input.language compiled }
      result := compiled.map fun _ => ()
      recorded := recordedBy handler fs input }

/-! ## Rendering -/

/-- **Renders the compiled template** for a state. -/
def execute [Renderable σ] (c : Context σ) (state : Json) : Outcome × Context σ :=
  match c.holding with
  | .compiled language program artifact =>
    let (outcome, artifact) := Renderable.render artifact state c.includes
    (c.runner.run outcome, { c with holding := .compiled language program artifact })
  | _ => (.failed .notCompiled, c)

/-- Renders the compiled template for a value of the host. A value that is no tree of data fails
before anything else. -/
def executeHost [Renderable σ] (c : Context σ) (state : HostValue) : Outcome × Context σ :=
  match state.toTree with
  | .error e => (.failed e, c)
  | .ok tree => c.execute tree

end Context

end Stencil
