import Stencil.FileSystem
import Stencil.Lua.Eval
import Stencil.Lua.Reader
import Stencil.Lua.Scope
set_option autoImplicit false

/-!
# Chunks

A chunk is a text that is read as the body of a function with extra arguments. It runs with the
globals of the machine.

## Main definitions

* `Stencil.Lua.Chunk` — a chunk with the name that errors give it.
* `Stencil.Lua.Chunk.read` — the statements of a chunk.
* `Stencil.Lua.Chunk.run` — runs a chunk.
-/

namespace Stencil.Lua

/-- **A chunk** with the name that errors give it. -/
structure Chunk where
  name : Bytes
  source : String

namespace Chunk

/-- The longest name of a file that errors give in full. -/
def longestName : Nat := 59

/-- The name of a chunk read from a file: its path, of which a long one loses its beginning. -/
def fileName (path : Path) : Bytes :=
  let b := Bytes.ofText path.text
  if b.length ≤ longestName then b
  else Bytes.ofText "..." ++ b.drop (b.length - (longestName - 3))

/-- The program of a template. -/
def template (source : String) : Chunk := ⟨Bytes.ofText chunkName, source⟩

/-- The chunk of a file. -/
def file (path : Path) (source : String) : Chunk := ⟨fileName path, source⟩

/-- The failure at a line where reading stops. -/
def malformed (c : Chunk) (line : Nat) : Failure :=
  .malformed (c.name.display ++ s!":{line}: the program is not well formed")

/-- **The statements of a chunk.** They must be well formed and keep the rules on names. -/
def read (c : Chunk) : Except Failure Block :=
  match Block.ofTokens (tokenize c.source.toList) with
  | .error line => .error (c.malformed line)
  | .ok (b, endLine) => match b.check endLine with
    | .error line => .error (c.malformed line)
    | .ok () => .ok b

/-- **Runs the statements of a chunk** with arguments. -/
def run (c : Chunk) (steps : Nat) (b : Block) (args : Arguments) : Run Arguments := do
  let cell ← Run.newCell (.table globalTable)
  let f ← Run.newClosure ⟨[], true, b, [⟨environmentName, cell, 0⟩], 0, c.name⟩
  call steps .start f args

end Chunk

/-- The failure that an error is. -/
def Failure.ofValue : Value → Failure
  | .failure f => f
  | v => .runtime v.display.display

end Stencil.Lua
