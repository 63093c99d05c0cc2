import Stencil.Diagnostic
import Stencil.Template.SyntaxError
set_option autoImplicit false

/-!
# Errors

Everything that can keep a template from becoming a text.

## Main definitions

* `Stencil.Error` — the causes.
* `Stencil.Error.message` — the text of an error.
-/

namespace Stencil

/-- **Why a template does not become a text.** -/
inductive Error where
  /-- The template itself is wrong. -/
  | template (cause : Template.SyntaxError)
  /-- No handler is known for the language of the template. -/
  | unsupportedLanguage (requested : String) (supported : List String)
  /-- The backend does not accept the program. -/
  | rejected (cause : Rejection)
  /-- Nobody gave the content that an include asks for. -/
  | unresolvedInclude (name : String)
  /-- There is no compiled template to render. -/
  | notCompiled
  /-- The compiled template failed. -/
  | renderFailed (reason : String)
  /-- The state is no tree of data. -/
  | stateSerialization (reason : String)
  /-- A caller gave an unusable value. -/
  | invalidArgument (name reason : String)
  /-- The configuration cannot be read. -/
  | configuration (reason : String)
  /-- A file cannot be read or written. -/
  | file (reason : String)
  /-- The opening and the closing marker of a block share a character, so the block has no
  inside. No template has such a block. -/
  | overlappingMarkers
  deriving DecidableEq, Repr

/-- **The text of an error.** -/
def Error.message : Error → String
  | template e => s!"TEMPLATE_SYNTAX: {e.message}"
  | unsupportedLanguage requested supported =>
    s!"UNSUPPORTED_LANGUAGE: language '{requested}' is not supported as a template language " ++
      "(known: " ++ ", ".intercalate supported ++ ")"
  | rejected r => s!"COMPILATION_FAILED: {r.message}"
  | unresolvedInclude name => s!"UNRESOLVED_INCLUDE: include '{name}' was not handled"
  | notCompiled => "NOT_COMPILED: execution context holds no compiled template"
  | renderFailed reason => s!"RENDER_FAILED: {reason}"
  | stateSerialization reason => s!"STATE_SERIALIZATION: {reason}"
  | invalidArgument name reason => s!"INVALID_ARGUMENT: {name}: {reason}"
  | configuration reason => s!"CONFIG_PARSE_ERROR: {reason}"
  | file reason => s!"IO_ERROR: {reason}"
  | overlappingMarkers => "INVALID_ARGUMENT: code_parts: the markers of a block overlap"

end Stencil
