import Stencil.Proofs.History
set_option autoImplicit false

/-!
# How compilations end

A compilation passes through stages: the name of the type, the template, its handler, the name of
its language, the program, and the backend. It ends at the first stage that fails, with the error
of that stage, and no stage behind that one has a say. The backend is asked once, and only for a
program that was written.

## Main definitions

* `Stencil.Job.Served` — a compilation that has found its template and its handler.
* `Stencil.Job.Ends` — the ending of a compilation, with the request to the backend before it.
* `Stencil.Context.asked` — the request that a compilation makes to a backend.
* `Stencil.Job.withBackends` — the same compilation with other backends.

## Main results

* `Stencil.Job.Ends.start` — the ending says what comes of a compilation.
* `Stencil.Job.exists_ends` — every compilation ends so.
* `Stencil.Context.start_withBackends` — nothing but the answer to the one request is asked of the
  backends.
* `Stencil.Context.start_ends_iff` — the first stage that fails decides, and nothing else does.
-/

namespace Stencil

variable {σ : Type} {job : Job σ} {config : Template.ParserConfig}

/-! ## Endings -/

/-- **A compilation that has found its template and its handler:** the type of the state has a
name, the template is parsed, and a handler is registered for its language. -/
structure Job.Served (job : Job σ) (config : Template.ParserConfig)
    (unit : Template.CompilationUnit) (handler : Handler σ) : Prop where
  named : Text.isBlankString job.stateType.name = false
  parsed : Template.parse config job.content = .ok unit
  registered : job.registry.find? unit.language = some handler

/-- The input of the handler for a parsed template. -/
def Job.input (job : Job σ) (unit : Template.CompilationUnit) : HandlerInput :=
  .ofUnit unit job.stateType job.parameterName

/-- The request to the backend for a program: the references are those of the host and those that
the template declares. -/
def Job.requestFor (job : Job σ) (unit : Template.CompilationUnit) (handler : Handler σ)
    (program : String) : CompileRequest where
  language := unit.language
  program
  references := resolveReferences job.fs handler.runtimeDir job.stateType unit.references.toList

/-- **The ending of a compilation,** with the request that was made to a backend, if any was. Each
stage has its way to fail, and is reached only if those before it do not fail. -/
inductive Job.Ends (job : Job σ) (config : Template.ParserConfig) :
    Option (Handler σ × CompileRequest) → Except Error Unit → Prop
  | namelessType (hname : Text.isBlankString job.stateType.name = true) :
    job.Ends config none (.error (.invalidArgument "state_type" "type name must not be blank"))
  | noTemplate (e : Template.SyntaxError)
    (hname : Text.isBlankString job.stateType.name = false)
    (hparse : Template.parse config job.content = .error e) :
    job.Ends config none (.error (.template e))
  | noHandler (unit : Template.CompilationUnit)
    (hname : Text.isBlankString job.stateType.name = false)
    (hparse : Template.parse config job.content = .ok unit)
    (hlanguage : unit.language ∉ job.registry.languages) :
    job.Ends config none (.error (.unsupportedLanguage unit.language job.registry.languages))
  | namelessLanguage (unit : Template.CompilationUnit) (handler : Handler σ)
    (hserved : job.Served config unit handler)
    (hlanguage : Text.isBlankString unit.language = true) :
    job.Ends config none (.error (.invalidArgument "language" "must not be blank"))
  | noProgram (unit : Template.CompilationUnit) (handler : Handler σ) (e : Error)
    (hserved : job.Served config unit handler)
    (hlanguage : Text.isBlankString unit.language = false)
    (hgenerate : handler.generate (job.input unit) = .error e) :
    job.Ends config none (.error e)
  | rejected (unit : Template.CompilationUnit) (handler : Handler σ) (program : String)
    (diagnostics : List Diagnostic)
    (hserved : job.Served config unit handler)
    (hlanguage : Text.isBlankString unit.language = false)
    (hgenerate : handler.generate (job.input unit) = .ok program)
    (hcompile : handler.compile job.fs (job.requestFor unit handler program) =
      .error diagnostics) :
    job.Ends config (some (handler, job.requestFor unit handler program))
      (.error (.rejected ⟨program, diagnostics⟩))
  | compiled (unit : Template.CompilationUnit) (handler : Handler σ) (program : String)
    (artifact : σ)
    (hserved : job.Served config unit handler)
    (hlanguage : Text.isBlankString unit.language = false)
    (hgenerate : handler.generate (job.input unit) = .ok program)
    (hcompile : handler.compile job.fs (job.requestFor unit handler program) = .ok artifact) :
    job.Ends config (some (handler, job.requestFor unit handler program)) (.ok ())

namespace Context

variable {c : Context σ}

/-! ## The request to the backend -/

/-- **The request that a compilation makes to a backend,** with the handler that it goes to, if
the compilation comes that far. -/
def asked (c : Context σ) (job : Job σ) : Option (Handler σ × CompileRequest) :=
  match c.prepare job.registry job.content job.stateType job.parameterName with
  | .error _ => none
  | .ok (handler, input) => match handler.request job.fs input with
    | .error _ => none
    | .ok request => some (handler, request)

/-- What a backend that keeps a record notes of a request: its references. -/
def noted : Option (Handler σ × CompileRequest) → List LibraryReference
  | some (handler, request) => if handler.records then request.references else []
  | none => []

/-- What goes on record is what the backend notes of the request. -/
theorem recorded_start (c : Context σ) (job : Job σ) :
    (c.start job).recorded = noted (c.asked job) := by
  rw [start, compile, asked]
  cases c.prepare job.registry job.content job.stateType job.parameterName with
  | error e => rfl
  | ok ready =>
    obtain ⟨handler, input⟩ := ready
    simp only [recordedBy]
    cases handler.request job.fs input with
    | error e => cases handler.records <;> rfl
    | ok request => cases hrecords : handler.records <;> simp [noted, hrecords]

/-- A compilation that finds no handler ends there. -/
theorem start_of_prepare_error {job : Job σ} {e : Error}
    (h : c.prepare job.registry job.content job.stateType job.parameterName = .error e) :
    c.asked job = none ∧ (c.start job).result = .error e := by
  simp [asked, start, compile, h]

/-- A compilation that finds its handler leaves the rest to it. -/
theorem start_of_served {job : Job σ} {unit : Template.CompilationUnit} {handler : Handler σ}
    (h : job.Served c.parserConfig unit handler) :
    c.asked job = (handler.request job.fs (job.input unit)).toOption.map (handler, ·) ∧
    (c.start job).result = (handler.build job.fs (job.input unit)).map fun _ => () := by
  have hprepare := (prepare_eq_ok_iff rfl job handler (job.input unit)).mpr
    ⟨h.named, unit, h.parsed, h.registered, rfl⟩
  rw [start, compile, asked, hprepare]
  cases hrequest : handler.request job.fs (job.input unit) <;> simp [hrequest, Except.toOption]

/-- The request of a handler for a template whose language has a name. -/
theorem request_of_served {job : Job σ} {unit : Template.CompilationUnit} {handler : Handler σ}
    (h : job.Served config unit handler) (hlanguage : Text.isBlankString unit.language = false) :
    handler.request job.fs (job.input unit) =
      (handler.generate (job.input unit)).map (job.requestFor unit handler) := by
  have hinput : Text.isBlankString (job.input unit).language = false := hlanguage
  have hname : Text.isBlankString (job.input unit).stateType.name = false := h.named
  rw [Handler.request, hinput, hname]
  rfl

end Context

/-! ## Endings and compilations -/

/-- The registered languages are those that have a handler. -/
theorem Registry.mem_languages_iff (registry : Registry σ) (language : String) :
    language ∈ registry.languages ↔ (registry.find? language).isSome = true :=
  NameMap.mem_keys_iff registry language

namespace Job

/-- **The ending says what comes of a compilation:** the request to the backend, and the
answer. -/
theorem Ends.start {c : Context σ} {request : Option (Handler σ × CompileRequest)}
    {answer : Except Error Unit} (h : job.Ends c.parserConfig request answer) :
    c.asked job = request ∧ (c.start job).result = answer := by
  cases h with
  | namelessType hname =>
    exact Context.start_of_prepare_error (by rw [Context.prepare, if_pos hname])
  | noTemplate e hname hparse =>
    exact Context.start_of_prepare_error (by simp [Context.prepare, hname, hparse])
  | noHandler unit hname hparse hlanguage =>
    have hfind : job.registry.find? unit.language = none := by
      simpa [Registry.mem_languages_iff] using hlanguage
    exact Context.start_of_prepare_error (by simp [Context.prepare, hname, hparse, hfind])
  | namelessLanguage unit handler hserved hlanguage =>
    have hinput : Text.isBlankString (job.input unit).language = true := hlanguage
    have hrequest : handler.request job.fs (job.input unit) =
        .error (.invalidArgument "language" "must not be blank") := by
      rw [Handler.request, if_pos hinput]
    obtain ⟨hasked, hresult⟩ := Context.start_of_served hserved
    rw [hasked, hresult, Handler.build, hrequest]
    exact ⟨rfl, rfl⟩
  | noProgram unit handler e hserved hlanguage hgenerate =>
    have hrequest := Context.request_of_served hserved hlanguage
    obtain ⟨hasked, hresult⟩ := Context.start_of_served hserved
    rw [hasked, hresult, Handler.build, hrequest, hgenerate]
    exact ⟨rfl, rfl⟩
  | rejected unit handler program diagnostics hserved hlanguage hgenerate hcompile =>
    have hrequest := Context.request_of_served hserved hlanguage
    obtain ⟨hasked, hresult⟩ := Context.start_of_served hserved
    rw [hgenerate] at hrequest
    rw [hasked, hresult, Handler.build, hrequest]
    simp only [Except.map, hcompile]
    exact ⟨rfl, rfl⟩
  | compiled unit handler program artifact hserved hlanguage hgenerate hcompile =>
    have hrequest := Context.request_of_served hserved hlanguage
    obtain ⟨hasked, hresult⟩ := Context.start_of_served hserved
    rw [hgenerate] at hrequest
    rw [hasked, hresult, Handler.build, hrequest]
    simp only [Except.map, hcompile]
    exact ⟨rfl, trivial⟩

/-- **Every compilation ends so.** -/
theorem exists_ends (job : Job σ) (config : Template.ParserConfig) :
    ∃ request answer, job.Ends config request answer := by
  cases hname : Text.isBlankString job.stateType.name with
  | true => exact ⟨_, _, .namelessType hname⟩
  | false =>
  cases hparse : Template.parse config job.content with
  | error e => exact ⟨_, _, .noTemplate e hname hparse⟩
  | ok unit =>
  cases hfind : job.registry.find? unit.language with
  | none => exact ⟨_, _, .noHandler unit hname hparse (by simp [Registry.mem_languages_iff, hfind])⟩
  | some handler =>
  have hserved : job.Served config unit handler := ⟨hname, hparse, hfind⟩
  cases hlanguage : Text.isBlankString unit.language with
  | true => exact ⟨_, _, .namelessLanguage unit handler hserved hlanguage⟩
  | false =>
  cases hgenerate : handler.generate (job.input unit) with
  | error e => exact ⟨_, _, .noProgram unit handler e hserved hlanguage hgenerate⟩
  | ok program =>
  cases hcompile : handler.compile job.fs (job.requestFor unit handler program) with
  | error diagnostics =>
    exact ⟨_, _, .rejected unit handler program diagnostics hserved hlanguage hgenerate hcompile⟩
  | ok artifact =>
    exact ⟨_, _, .compiled unit handler program artifact hserved hlanguage hgenerate hcompile⟩

end Job

/-! ## Other backends -/

/-- **The same handlers with other backends.** -/
def Registry.withBackends (registry : Registry σ)
    (backends : String → FileSystem → CompileRequest → Except (List Diagnostic) σ) :
    Registry σ where
  entries := registry.entries.map fun (language, handler) =>
    (language, { handler with compile := backends language })
  ascending := by
    simpa only [List.map_map, Function.comp_def] using registry.ascending

/-- **The same compilation with other backends.** -/
def Job.withBackends (job : Job σ)
    (backends : String → FileSystem → CompileRequest → Except (List Diagnostic) σ) : Job σ :=
  { job with registry := job.registry.withBackends backends }

section Backends

variable (backends : String → FileSystem → CompileRequest → Except (List Diagnostic) σ)

/-- The same languages are registered. -/
theorem Registry.languages_withBackends (registry : Registry σ) :
    (registry.withBackends backends).languages = registry.languages := by
  simp only [languages, NameMap.keys, withBackends, List.map_map, Function.comp_def]

/-- Each language has its handler with the other backend. -/
theorem Registry.find?_withBackends (registry : Registry σ) (language : String) :
    (registry.withBackends backends).find? language =
      (registry.find? language).map fun h => { h with compile := backends language } := by
  obtain ⟨entries, hascending⟩ := registry
  simp only [NameMap.find?, withBackends]
  clear hascending
  induction entries with
  | nil => rfl
  | cons entry entries ih =>
    obtain ⟨key, handler⟩ := entry
    rw [List.map_cons, List.lookup_cons, List.lookup_cons, ih]
    cases hkey : language == key with
    | true => simp [beq_iff_eq.mp hkey]
    | false => rfl

/-- A request is made in the language of the input. -/
theorem Handler.language_of_request {handler : Handler σ} {fs : FileSystem} {input : HandlerInput}
    {request : CompileRequest} (h : handler.request fs input = .ok request) :
    request.language = input.language := by
  rw [Handler.request] at h
  split at h
  · cases h
  split at h
  · cases h
  cases hgenerate : handler.generate input with
  | error e =>
    rw [hgenerate] at h
    cases h
  | ok program =>
    rw [hgenerate] at h
    cases h
    rfl

namespace Context

/-- The handler of a compilation is found in the same way, and its input is the same. -/
theorem prepare_withBackends (c : Context σ) (job : Job σ) :
    c.prepare (job.withBackends backends).registry job.content job.stateType
        job.parameterName =
      (c.prepare job.registry job.content job.stateType job.parameterName).map
        fun (handler, input) => ({ handler with compile := backends input.language }, input) := by
  rw [prepare, prepare]
  cases Text.isBlankString job.stateType.name with
  | true => rfl
  | false =>
    cases Template.parse c.parserConfig job.content with
    | error e => rfl
    | ok unit =>
      simp only [Job.withBackends, Registry.find?_withBackends, Registry.languages_withBackends]
      cases hfind : job.registry.find? unit.language with
      | none => simp [Except.map]
      | some handler => simp [Except.map, HandlerInput.ofUnit]

/-- **Nothing but the answer to the one request is asked of the backends:** backends that give the
same answer to it change nothing, and without a request all backends do. -/
theorem start_withBackends (c : Context σ) (job : Job σ)
    (h : ∀ handler request, c.asked job = some (handler, request) →
      backends request.language job.fs request = handler.compile job.fs request) :
    c.start (job.withBackends backends) = c.start job := by
  have hprepare := c.prepare_withBackends backends job
  rw [asked] at h
  rw [start, start, compile, compile]
  cases hready : c.prepare job.registry job.content job.stateType job.parameterName with
  | error e =>
    rw [hready] at hprepare
    simp only [Job.withBackends] at hprepare ⊢
    rw [hprepare]
    rfl
  | ok ready =>
    obtain ⟨handler, input⟩ := ready
    rw [hready] at hprepare h
    have hrequest : Handler.request { handler with compile := backends input.language } job.fs
        input = handler.request job.fs input := rfl
    have hbuild : Handler.build { handler with compile := backends input.language } job.fs input =
        handler.build job.fs input := by
      rw [Handler.build, Handler.build, hrequest]
      cases hanswer : handler.request job.fs input with
      | error e => rfl
      | ok request =>
        simp only [hanswer] at h
        have hlanguage := Handler.language_of_request hanswer
        simp only [← h handler request rfl, hlanguage]
    simp only [Job.withBackends] at hprepare ⊢
    rw [hprepare]
    simp only [Except.map, hbuild, recordedBy, hrequest]

end Context

end Backends

/-! ## What decides a compilation -/

/-- **The first stage that fails decides what comes of a compilation, and nothing else does.**

* Of the endings, exactly one is that of the compilation: the one whose request is made and whose
  answer is given.
* What goes on record is the list of references of that request, at a handler that keeps a record;
  without a request it is empty.
* Other backends that give the same answer to that request change nothing, neither the answer nor
  what is held; without a request no backend has a say.
* The languages that an error names are in ascending order, and they are exactly those that a
  handler is registered for.

**Proof sketch.** There is an ending, by the stages in their order; an ending says which request
is made and which answer is given, so it is the only one. The backends are looked at in one place,
with that request. -/
theorem Context.start_ends_iff (c : Context σ) (job : Job σ) :
    (∀ request answer, job.Ends c.parserConfig request answer ↔
      c.asked job = request ∧ (c.start job).result = answer) ∧
    (c.start job).recorded = noted (c.asked job) ∧
    (∀ backends : String → FileSystem → CompileRequest → Except (List Diagnostic) σ,
      (∀ handler request, c.asked job = some (handler, request) →
        backends request.language job.fs request = handler.compile job.fs request) →
      c.start (job.withBackends backends) = c.start job) ∧
    job.registry.languages.Pairwise (· < ·) ∧
    ∀ language, language ∈ job.registry.languages ↔
      ∃ handler, job.registry.find? language = some handler := by
  have hends : ∀ request answer, job.Ends c.parserConfig request answer ↔
      c.asked job = request ∧ (c.start job).result = answer := by
    refine fun request answer => ⟨Job.Ends.start, ?_⟩
    rintro ⟨rfl, rfl⟩
    obtain ⟨request, answer, h⟩ := job.exists_ends c.parserConfig
    obtain ⟨hasked, hresult⟩ := h.start
    rwa [hasked, hresult]
  refine ⟨hends, c.recorded_start job, fun backends => c.start_withBackends backends job,
    job.registry.ascending, fun language => ?_⟩
  rw [Registry.mem_languages_iff, Option.isSome_iff_exists]

end Stencil
