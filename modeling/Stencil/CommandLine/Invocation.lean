import Stencil.CommandLine.Option
import Stencil.Path
set_option autoImplicit false

/-!
# Invocations

A command line names one of three commands and the template that it is for.

## Main definitions

* `Stencil.CommandLine.Command` — the commands.
* `Stencil.CommandLine.Invocation` — a command with the options that all commands have.
* `Stencil.CommandLine.Invocation.read` — the invocation that a command line is.
-/

namespace Stencil.CommandLine

/-- Where the state comes from, and the name of the parameter for it. -/
structure StateOptions where
  state : Option Path
  parameter : String
  deriving DecidableEq, Repr

/-- **The commands.** -/
inductive Command where
  /-- Show what a template is made of. -/
  | parse (json : Bool)
  /-- Show the program of a template. -/
  | source (options : StateOptions)
  /-- Render a template, with files for its includes. -/
  | render (options : StateOptions) (includes : List String)
  deriving DecidableEq, Repr

/-- **A command for a template,** with the options that all commands have. -/
structure Invocation where
  command : Command
  template : Path
  config : Option Path
  verbose : Bool
  deriving DecidableEq, Repr

/-! ## Reading -/

/-- The options that all commands have. They can stand before the name of the command too. -/
def commonNames : List Name := [.config, .verbose]

/-- The further options of a command, by its name. -/
def commandNames : String → Option (List Name)
  | "parse" => some [.json]
  | "source" => some [.state, .param]
  | "render" => some [.state, .param, .includes]
  | _ => none

/-- A path, which must not be empty. -/
def pathOf (s : List Char) : Option Path := if s.isEmpty then none else some ⟨String.ofList s⟩

/-- The path that an option gives, if it is given; none for an empty path. -/
def pathOption (name : Name) (items : List Item) : Option (Option Path) :=
  match valuesOf name items with
  | [] => some none
  | value :: _ => (pathOf value).map some

/-- The options about the state. -/
def stateOptions (items : List Item) : Option StateOptions :=
  (pathOption .state items).map fun state =>
    ⟨state, match valuesOf .param items with
      | [] => "state"
      | value :: _ => String.ofList value⟩

/-- The command of a name, with its options. -/
def commandOf (name : String) (items : List Item) : Option Command :=
  match name with
  | "parse" => some (.parse (isSet .json items))
  | "source" => (stateOptions items).map .source
  | "render" => (stateOptions items).map fun options =>
    .render options ((valuesOf .includes items).map String.ofList)
  | _ => none

/-- The configuration that options name on one side of the name of the command; `fallback` where
they name none. -/
def configOf (fallback : Option String) (items : List Item) : Option (Option Path) :=
  match valuesOf .config items, fallback with
  | [], some value => (pathOf value.toList).map some
  | _, _ => pathOption .config items

/-- The configuration that counts: what stands behind the name of the command comes before what
stands in front of it, and the fallback comes last. -/
def chosenConfig (fallback : Option String) (before after : List Item) : Option (Option Path) := do
  let outer ← configOf fallback before
  let inner ← configOf fallback after
  if (valuesOf .config after).isEmpty then return outer else return inner

/-- The one argument that a command has. -/
def templateOf (items : List Item) : Option Path :=
  match argumentsOf items with
  | [a] => pathOf a
  | _ => none

/-- **The invocation that a command line is.** `fallback` names the configuration where no option
does. -/
def Invocation.read (fallback : Option String) (args : List String) : Option Invocation := do
  let (before, rest) ← scan commonNames true (args.map String.toList)
  let name ← rest.head?.map String.ofList
  let names ← commandNames name
  let (after, _) ← scan (commonNames ++ names) false rest.tail
  let config ← chosenConfig fallback before after
  let template ← templateOf after
  let command ← commandOf name after
  if noneRepeated before && noneRepeated after then
    return ⟨command, template, config, isSet .verbose before || isSet .verbose after⟩
  else none

end Stencil.CommandLine
