import Stencil.Config
import Stencil.Context
import Stencil.Lua.Session
import Stencil.Mock
set_option autoImplicit false

/-!
# Backends

The handlers that there are, over one type of artifacts, so that one registry can hold them all.

## Main definitions

* `Stencil.Artifact` — what a backend makes.
* `Stencil.Backend` — the backends by name.
* `Stencil.Backend.handler` — the handler of a backend.
-/

namespace Stencil

/-- **What a backend makes.** -/
inductive Artifact where
  | echo (e : Echo)
  | lua (s : Lua.Session)

instance : Renderable Artifact where
  render artifact state includes := match artifact with
    | .echo e => (e.render state includes, .echo e)
    | .lua s =>
      let (outcome, s) := s.render state includes
      (outcome, .lua s)

/-- The handler with its artifacts seen as those of a larger type. -/
def Handler.map {σ τ : Type} (f : σ → τ) (h : Handler σ) : Handler τ where
  generate := h.generate
  compile fs request := (h.compile fs request).map f
  runtimeDir := h.runtimeDir
  records := h.records

/-- **The backends by name.** -/
inductive Backend where
  | lua
  | echo
  | failing
  | recording
  deriving DecidableEq, Repr

/-- **The handler of a backend,** with its settings and the directory of the program that runs
it. -/
def Backend.handler (programDir : Path) (config : HandlerConfig) : Backend → Handler Artifact
  | .lua => (Handler.lua programDir config).map .lua
  | .echo => (Handler.echo (some programDir)).map .echo
  | .failing => (Handler.failing (some programDir)).map .echo
  | .recording => (Handler.recording config.libraryDir).map .echo

end Stencil
