import Stencil.Handler
import Stencil.Json.Reader
set_option autoImplicit false

/-!
# Handlers without a language

Handlers to try the wiring of a host with. One takes the parts of the template for its program
and echoes them; one rejects every program.

## Main definitions

* `Stencil.Echo` — a list of parts that renders itself.
* `Stencil.Handler.echo`, `recording` — the handlers that make it.
* `Stencil.Handler.failing` — the handler that rejects.
-/

namespace Stencil

/-! ## Echoes -/

/-- **A list of parts that renders itself:** literals as they are, includes by their content, and
a mark for any other block. -/
structure Echo where
  parts : List String
  deriving DecidableEq, Repr

namespace Echo

/-- The parts that a program lists, if it is a list of strings. -/
def ofProgram (program : String) : Option Echo :=
  match Json.parse program with
  | some (.array items) => (items.mapM Json.string?).map Echo.mk
  | _ => none

/-- The mark for a block that is neither a literal nor an include. -/
def blockMark : String := "[code]"

/-- The text of one part. -/
def partText (includes : Option Resolver) (part : String) : Except Error String :=
  let text := part.toList
  if Template.Part.isBlockText part then
    match Template.classify text, Template.includeName text with
    | some .inclusion, some name => resolveInclude includes (String.ofList name)
    | _, _ => .ok blockMark
  else .ok part

/-- **The text of an echo.** The first include that fails is the error. -/
def text (e : Echo) (includes : Option Resolver) : Except Error String :=
  (e.parts.mapM (partText includes)).map String.join

/-- Whether an entry of a state is set. -/
def isSet (state : Json) (key : String) : Bool :=
  match state.field? key with
  | some (.bool b) => b
  | _ => false

/-- **The rendering of an echo.** The state can ask it to break down, or to stay silent. -/
def render (e : Echo) (state : Json) (includes : Option Resolver) : Outcome :=
  if isSet state "panic" then .panicked "echo artifact asked to panic"
  else if isSet state "silent" then .output none
  else match e.text includes with
    | .ok text => .output (some text)
    | .error e => .failed e

end Echo

instance : Renderable Echo where
  render e state includes := (e.render state includes, e)

/-! ## Handlers -/

namespace Handler

/-- **The handler whose programs are lists of parts.** -/
def echo (runtimeDir : Option Path) : Handler Echo where
  generate input := .ok (Json.strings input.codeParts).pretty
  compile _ request := match Echo.ofProgram request.program with
    | some e => .ok e
    | none => .error [.errorAt 1 "program is not a part list"]
  runtimeDir

/-- The same handler, with a record of the references of each compilation. -/
def recording (runtimeDir : Option Path) : Handler Echo :=
  { echo runtimeDir with records := true }

/-- **The handler that rejects every program,** with an error and a warning. -/
def failing (runtimeDir : Option Path) : Handler Echo where
  generate input := .ok ("-- failing program for " ++ input.stateType.name)
  compile _ _ := .error
    [.errorAt 1 "mock backend rejected the program", .warning "mock backend warning"]
  runtimeDir

end Handler

end Stencil
