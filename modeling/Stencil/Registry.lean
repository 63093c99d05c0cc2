import Stencil.Handler
set_option autoImplicit false

/-!
# Registries

Which handler serves which language. Languages are looked up by their exact names.

## Main definitions

* `Stencil.Registry` — the handlers by language.
* `Stencil.Registry.describe` — the registered languages in one line.
-/

namespace Stencil

/-- **The handlers by language.** -/
abbrev Registry (σ : Type) := NameMap (Handler σ)

namespace Registry

variable {σ : Type}

/-- The registered languages, ascending. -/
def languages (r : Registry σ) : List String := r.keys

/-- The registered languages in one line. -/
def describe (r : Registry σ) : String :=
  "HandlerRegistry \x7b languages: " ++ Text.quotedList (languages r) ++ " \x7d"

end Registry

end Stencil
