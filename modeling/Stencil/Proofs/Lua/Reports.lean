import Stencil.Proofs.Lua.Modules
set_option autoImplicit false

/-!
# What a compilation reports

Every file that is referred to is run, also behind one that fails, and the program is read whatever
came of the files. All that fails up to there is reported together: the files in order, and then the
program. Only if nothing has failed is the program run, and what it fails with is reported alone.
The files that are read are those of the template; the libraries of the host are never looked for.

## Main definitions

* `Stencil.Lua.Attempt` — a file is run, with what it gives or why it fails.
* `Stencil.Lua.Tries` — files are run one after another, whatever comes of each.
* `Stencil.Lua.failures` — what is reported about files.
* `Stencil.Lua.Chunk.reports` — what is reported about a program that is not well formed.

## Main results

* `Stencil.Lua.loadReferences_exhausted_or_tries` — every file is run.
* `Stencil.Lua.compile_congr` — only the files of the template are read.
* `Stencil.Lua.compile_reports` — what is reported, and which programs are accepted.
* `Stencil.Lua.exists_report_of_number` — a program that gives no function is not accepted.
-/

namespace Stencil.Lua

variable {fs fs' : FileSystem} {steps modules : Nat} {m : Machine}

/-! ## Chunks -/

/-- **The three ends of a chunk.** It is not well formed, or it raises an error, or it gives values;
or else it uses up the steps. -/
theorem runChunk_cases (c : Chunk) (steps : Nat) (args : Arguments) (m : Machine) :
    (∃ f, c.read = .error f ∧ runChunk c steps args m = .done (.error f) m) ∨
    ∃ b, c.read = .ok b ∧
      ((∃ v m', c.run steps b args m = .raised v m' ∧
          runChunk c steps args m = .done (.error (.ofValue v)) m') ∨
        (∃ v m', runChunk c steps args m = .done (.ok v) m') ∨
        runChunk c steps args m = .exhausted) := by
  unfold runChunk
  cases hread : c.read with
  | error f => exact .inl ⟨f, rfl, rfl⟩
  | ok b =>
    refine .inr ⟨b, rfl, ?_⟩
    cases hrun : c.run steps b args m with
    | raised v m' =>
      exact .inl ⟨v, m', rfl, (Run.bind_done (Run.protect_raised hrun)).trans rfl⟩
    | done values m' =>
      exact .inr (.inl ⟨values.headD .nil, m', (Run.bind_done (Run.protect_done hrun)).trans rfl⟩)
    | exhausted => exact .inr (.inr (Run.bind_exhausted (Run.protect_exhausted hrun)))

/-! ## Files that are run -/

/-- **A file is run,** with the value that it gives or the reason why it fails, and the machine
that is left: it cannot be read, it is not well formed, it raises an error, or it gives a value,
which is then among the modules. -/
inductive Attempt (fs : FileSystem) (steps modules : Nat) (m : Machine) (r : LibraryReference) :
    Except String Value → Machine → Prop where
  | unreadable {e : FileError} (hsource : fs.readText r.path = .error e) :
      Attempt fs steps modules m r (.error s!"cannot read {r.path.text}: {e.message}") m
  | malformed {source : String} {f : Failure} (hsource : fs.readText r.path = .ok source)
      (hread : (Chunk.file r.path source).read = .error f) :
      Attempt fs steps modules m r (.error (String.ofList (firstLine f.text.toList))) m
  | raising {source : String} {b : Block} {v : Value} {m' : Machine}
      (hsource : fs.readText r.path = .ok source)
      (hread : (Chunk.file r.path source).read = .ok b)
      (hrun : (Chunk.file r.path source).run steps b [] m = .raised v m') :
      Attempt fs steps modules m r
        (.error (String.ofList (firstLine (Failure.ofValue v).text.toList))) m'
  | loading {source : String} {v : Value} {m' : Machine}
      (hsource : fs.readText r.path = .ok source)
      (hrun : runChunk (.file r.path source) steps [] m = .done (.ok v) m') :
      Attempt fs steps modules m r (.ok v) (m'.withModule modules (r, v))

/-- **Files are run one after another,** whatever comes of each. -/
inductive Tries (fs : FileSystem) (steps modules : Nat) :
    Machine → List (LibraryReference × Except String Value) → Machine → Prop where
  | nil (m : Machine) : Tries fs steps modules m [] m
  | cons {m m' m'' : Machine} {r : LibraryReference} {outcome : Except String Value}
      {tried : List (LibraryReference × Except String Value)}
      (hfirst : Attempt fs steps modules m r outcome m')
      (hrest : Tries fs steps modules m' tried m'') :
      Tries fs steps modules m ((r, outcome) :: tried) m''

/-- What is reported about a file: nothing if it gave a value. -/
def failure? (e : LibraryReference × Except String Value) : Option Diagnostic :=
  match e.2 with
  | .error message => some (referenceError e.1 message)
  | .ok _ => none

/-- **What is reported about files,** in their order. -/
def failures (tried : List (LibraryReference × Except String Value)) : List Diagnostic :=
  tried.filterMap failure?

/-- Something is reported about a file if it fails. -/
theorem failure?_eq_none_iff {e : LibraryReference × Except String Value} :
    failure? e = none ↔ e.2.isOk = true := by
  obtain ⟨r, message | v⟩ := e <;> simp [failure?, Except.isOk, Except.toBool]

/-- Nothing is reported about files if none fails. -/
theorem failures_eq_nil_iff {tried : List (LibraryReference × Except String Value)} :
    failures tried = [] ↔ ∀ e ∈ tried, e.2.isOk = true := by
  simp only [failures, List.filterMap_eq_nil_iff, failure?_eq_none_iff]

/-- The report about the first file stands in front. -/
theorem failures_cons (e : LibraryReference × Except String Value)
    (tried : List (LibraryReference × Except String Value)) :
    failures (e :: tried) = (failure? e).toList ++ failures tried := by
  rw [failures, List.filterMap_cons]
  cases failure? e <;> rfl

/-- A file is run, unless it uses up the steps. -/
theorem loadReference_exhausted_or_attempt (fs : FileSystem) (steps modules : Nat)
    (r : LibraryReference) (m : Machine) :
    loadReference fs steps modules r m = .exhausted ∨
      ∃ outcome m', Attempt fs steps modules m r outcome m' ∧
        loadReference fs steps modules r m = .done (failure? (r, outcome)) m' := by
  cases hsource : fs.readText r.path with
  | error e =>
    refine .inr ⟨_, m, .unreadable hsource, ?_⟩
    rw [loadReference, hsource]
    rfl
  | ok source =>
    rcases runChunk_cases (.file r.path source) steps [] m with
      ⟨f, hread, hrun⟩ | ⟨b, hread, ⟨v, m', hraised, hrun⟩ | ⟨v, m', hrun⟩ | hrun⟩
    · refine .inr ⟨_, m, .malformed hsource hread, ?_⟩
      simp only [loadReference, hsource]
      exact (Run.bind_done hrun).trans rfl
    · refine .inr ⟨_, m', .raising hsource hread hraised, ?_⟩
      simp only [loadReference, hsource]
      exact (Run.bind_done hrun).trans rfl
    · exact .inr ⟨.ok v, _, .loading hsource hrun,
        loadReference_eq_done_iff.mpr ⟨source, v, m', hsource, hrun, rfl⟩⟩
    · left
      simp only [loadReference, hsource]
      exact Run.bind_exhausted hrun

/-- **Every file is run,** also behind one that fails, unless one of them uses up the steps. -/
theorem loadReferences_exhausted_or_tries (fs : FileSystem) (steps modules : Nat)
    (rs : List LibraryReference) (m : Machine) :
    loadReferences fs steps modules rs m = .exhausted ∨
      ∃ tried m', tried.map Prod.fst = rs ∧ Tries fs steps modules m tried m' ∧
        loadReferences fs steps modules rs m = .done (failures tried) m' := by
  induction rs generalizing m with
  | nil => exact .inr ⟨[], m, rfl, .nil m, rfl⟩
  | cons r rs ih =>
    rw [loadReferences]
    obtain hfirst | ⟨outcome, m₁, hattempt, hfirst⟩ :=
      loadReference_exhausted_or_attempt fs steps modules r m
    · exact .inl (Run.bind_exhausted hfirst)
    · rw [Run.bind_done hfirst]
      obtain hrest | ⟨tried, m', rfl, htries, hrest⟩ := ih m₁
      · exact .inl (Run.bind_exhausted hrest)
      · refine .inr ⟨(r, outcome) :: tried, m', rfl, .cons hattempt htries, ?_⟩
        rw [Run.bind_done hrest, failures_cons]
        rfl

/-! ## The files of the template -/

/-- Nothing is read but the files. -/
theorem loadReferences_congr (steps modules : Nat) {rs : List LibraryReference}
    (h : ∀ r ∈ rs, fs'.readText r.path = fs.readText r.path) :
    loadReferences fs' steps modules rs = loadReferences fs steps modules rs := by
  induction rs with
  | nil => rfl
  | cons r rs ih =>
    rw [List.forall_mem_cons] at h
    simp only [loadReferences, loadReference, h.1, ih h.2]

/-- **Only the files of the template are read:** where these have the same text, or cannot be read
for the same reason, the compilation is the same. -/
theorem compile_congr {request : CompileRequest}
    (h : ∀ r ∈ referencedFiles request, fs'.readText r.path = fs.readText r.path) :
    compile fs' request = compile fs request := by
  have hstart : start fs' request Machine.fresh = start fs request Machine.fresh := by
    rw [start_eq, start_eq]
    have hfiles := loadReferences_congr (stepLimit request.program) 6 h
    rw [referencedFiles] at hfiles
    rw [hfiles]
  simp only [compile, hstart]

/-! ## Programs -/

/-- **What is reported about a program** that is not well formed. -/
def Chunk.reports (c : Chunk) : List Diagnostic :=
  match c.read with
  | .error f => [f.diagnostic]
  | .ok _ => []

/-- A program fails when it is run: it raises an error, or what it gives is no function. -/
def Chunk.Fails (c : Chunk) (steps modules : Nat) (b : Block) (m : Machine) : Prop :=
  (∃ v m', c.run steps b [.table modules] m = .raised v m') ∨
    ∃ values m', c.run steps b [.table modules] m = .done values m' ∧
      (values.headD .nil).isFunction = false

/-- A failure is reported as an error. -/
theorem Failure.isError_diagnostic (f : Failure) : f.diagnostic.isError = true := by
  unfold diagnostic
  dsimp only
  split <;> rfl

/-- **The ends of a program.** It fails, with one error, or it gives a function, or it uses up the
steps. -/
theorem runProgram_cases (c : Chunk) (b : Block) (steps modules : Nat) (m : Machine) :
    (c.Fails steps modules b m ∧
      ∃ d m', d.isError = true ∧ runProgram c b steps modules m = .done (.error [d]) m') ∨
    ¬ c.Fails steps modules b m ∧
      ((∃ v m', runProgram c b steps modules m = .done (.ok v) m') ∨
        runProgram c b steps modules m = .exhausted) := by
  unfold runProgram
  cases hrun : c.run steps b [.table modules] m with
  | raised v m' =>
    refine .inl ⟨.inl ⟨v, m', hrun⟩, _, m', Failure.isError_diagnostic (.ofValue v), ?_⟩
    rw [Run.bind_done (Run.protect_raised hrun)]
    rfl
  | done values m' =>
    rw [Run.bind_done (Run.protect_done hrun)]
    cases hfunction : (values.headD .nil).isFunction with
    | false =>
      refine .inl ⟨.inr ⟨values, m', hrun, hfunction⟩,
        .error s!"error converting Lua {(values.headD .nil).typeName} to function", m', rfl, ?_⟩
      simp only [hfunction, Bool.false_eq_true, if_false]
      rfl
    | true =>
      refine .inr ⟨?_, .inl ⟨values.headD .nil, m', ?_⟩⟩
      · rintro (⟨v, m'', hraised⟩ | ⟨values', m'', hdone, hno⟩)
        · cases hrun.symm.trans hraised
        · obtain ⟨rfl, -⟩ := Step.done.inj (hrun.symm.trans hdone)
          cases hfunction.symm.trans hno
      · simp only [hfunction, if_true]
        rfl
  | exhausted =>
    refine .inr ⟨?_, .inr (Run.bind_exhausted (Run.protect_exhausted hrun))⟩
    rintro (⟨v, m', hraised⟩ | ⟨values, m', hdone, -⟩)
    · cases hrun.symm.trans hraised
    · cases hrun.symm.trans hdone

/-! ## Compiling -/

section Compile

variable {request : CompileRequest} {tried : List (LibraryReference × Except String Value)}

/-- **All that fails before the program is run** is reported together. -/
theorem compile_of_failing
    (hfiles : loadReferences fs (stepLimit request.program) 6 (referencedFiles request)
      Machine.loaded = .done (failures tried) m)
    (h : (∃ e ∈ tried, e.2.isOk = false) ∨ ∃ f, (Chunk.template request.program).read = .error f) :
    compile fs request = .error (failures tried ++ (Chunk.template request.program).reports) := by
  rw [referencedFiles] at hfiles
  cases hread : (Chunk.template request.program).read with
  | error f => simp only [compile, start_eq, Run.bind_done hfiles, hread, Chunk.reports]; rfl
  | ok b =>
    have hwrong : (failures tried).isEmpty = false := by
      rw [List.isEmpty_eq_false_iff, Ne, failures_eq_nil_iff]
      simpa [hread] using h
    simp only [compile, start_eq, Run.bind_done hfiles, hread, Chunk.reports, hwrong,
      List.append_nil]
    rfl

/-- If nothing fails before, the compilation ends as the program. -/
theorem compile_cases_of_loading {b : Block}
    (hends : start fs request Machine.fresh ≠ .exhausted)
    (hfiles : loadReferences fs (stepLimit request.program) 6 (referencedFiles request)
      Machine.loaded = .done (failures tried) m)
    (hall : ∀ e ∈ tried, e.2.isOk = true)
    (hread : (Chunk.template request.program).read = .ok b) :
    ((Chunk.template request.program).Fails (stepLimit request.program) 6 b m ∧
      ∃ d, compile fs request = .error [d] ∧ d.isError = true) ∨
    ¬ (Chunk.template request.program).Fails (stepLimit request.program) 6 b m ∧
      ∃ s, compile fs request = .ok s := by
  rw [failures_eq_nil_iff.mpr hall] at hfiles
  obtain ⟨loaded, hloaded, hloads⟩ := loadReferences_eq_done_iff.mp hfiles
  obtain ⟨hfails, d, m', hd, hrun⟩ | ⟨hfails, ⟨v, m', hrun⟩ | hrun⟩ :=
    runProgram_cases (.template request.program) b (stepLimit request.program) 6 m
  · exact .inl ⟨hfails, d, compile_of_runProgram hloaded hloads hread hrun, hd⟩
  · exact .inr ⟨hfails, _, compile_of_runProgram hloaded hloads hread hrun⟩
  · refine absurd ?_ hends
    rw [start_eq]
    refine (Run.bind_done hfiles).trans ?_
    rw [hread]
    exact Run.bind_exhausted hrun

/-- **What a compilation reports, and which programs it accepts,** if it comes to an end. Every file
of the template is run, whatever comes of the others. A program is rejected if and only if a file
fails, or the program is not well formed, or neither of these and the program fails when it is run.
The reports are in the first two cases those about the files, in order, and then that about a
program that is not well formed; in the third case it is one error. No other file is read.

**Proof sketch.** The run of the files never raises an error, so it ends with what is reported about
them. If that is nothing, and the program is well formed, the compilation ends as the program. -/
theorem compile_reports (hends : start fs request Machine.fresh ≠ .exhausted) :
    let program := Chunk.template request.program
    let steps := stepLimit request.program
    ∃ tried m, tried.map Prod.fst = referencedFiles request ∧
      Tries fs steps 6 Machine.loaded tried m ∧
      ((∃ ds, compile fs request = .error ds) ↔
        (∃ e ∈ tried, e.2.isOk = false) ∨ (∃ f, program.read = .error f) ∨
          (∀ e ∈ tried, e.2.isOk = true) ∧
            ∃ b, program.read = .ok b ∧ program.Fails steps 6 b m) ∧
      ((∃ e ∈ tried, e.2.isOk = false) ∨ (∃ f, program.read = .error f) →
        compile fs request = .error (failures tried ++ program.reports)) ∧
      (∀ b, (∀ e ∈ tried, e.2.isOk = true) → program.read = .ok b → program.Fails steps 6 b m →
        ∃ d, compile fs request = .error [d] ∧ d.isError = true) ∧
      ∀ fs' : FileSystem,
        (∀ r ∈ referencedFiles request, fs'.readText r.path = fs.readText r.path) →
          compile fs' request = compile fs request := by
  intro program steps
  obtain hloop | ⟨tried, m, htried, htries, hfiles⟩ :=
    loadReferences_exhausted_or_tries fs steps 6 (referencedFiles request) Machine.loaded
  · refine absurd ?_ hends
    rw [start_eq]
    exact Run.bind_exhausted hloop
  refine ⟨tried, m, htried, htries, ⟨?_, ?_⟩, compile_of_failing hfiles, ?_, fun _ => compile_congr⟩
  · rintro ⟨ds, hds⟩
    by_contra hno
    simp only [not_or, not_and, not_exists, Bool.not_eq_false] at hno
    obtain ⟨hall, hread, hfails⟩ := hno
    cases hb : program.read with
    | error f => exact hread f hb
    | ok b =>
      obtain ⟨hprogram, -⟩ | ⟨-, s, hs⟩ := compile_cases_of_loading hends hfiles hall hb
      · exact hfails hall b hb hprogram
      · cases hds.symm.trans hs
  · rintro (hfile | hread | ⟨hall, b, hread, hfails⟩)
    · exact ⟨_, compile_of_failing hfiles (.inl hfile)⟩
    · exact ⟨_, compile_of_failing hfiles (.inr hread)⟩
    · obtain ⟨-, d, hd, -⟩ | ⟨hno, -⟩ := compile_cases_of_loading hends hfiles hall hread
      · exact ⟨_, hd⟩
      · exact absurd hfails hno
  · intro b hall hread hfails
    obtain ⟨-, hreported⟩ | ⟨hno, -⟩ := compile_cases_of_loading hends hfiles hall hread
    · exact hreported
    · exact absurd hfails hno

end Compile

/-! ## Reports that stand together -/

/-- A file that raises an error, and one that gives a text. -/
def failingFiles : FileSystem :=
  (FileSystem.empty.insert ["b.lua"] (.file "error('boom', 0)".toUTF8)).insert ["c.lua"]
    (.file "return 'text'".toUTF8)

/-- A program that is not well formed, and refers to both files behind one that is not there. -/
def failing : CompileRequest where
  language := "Lua5.4"
  program := "return return"
  references := [.host "lua54", fileReference "a.lua", fileReference "b.lua",
    fileReference "c.lua"]

/-- What is reported about a request. -/
def reportsOf (fs : FileSystem) (request : CompileRequest) : Option (List Diagnostic) :=
  match compile fs request with
  | .error ds => some ds
  | .ok _ => none

/-- A request about which something is reported is rejected. -/
theorem compile_of_reportsOf {request : CompileRequest} {ds : List Diagnostic}
    (h : reportsOf fs request = some ds) : compile fs request = .error ds := by
  unfold reportsOf at h
  split at h
  · rename_i ds' hds
    rw [hds, Option.some.inj h]
  · cases h

/-- What is reported about it: the first two files, and the program. -/
theorem compile_failing : compile failingFiles failing = .error
    [.error "reference 'a.lua': cannot read a.lua: No such file or directory (os error 2)",
      .error "reference 'b.lua': runtime error: boom",
      .errorAt 1 "the program is not well formed"] :=
  compile_of_reportsOf (by decide +kernel)

/-- **All files are run and the program is read,** and what is wrong is reported together. -/
theorem compile_reports_failing : start failingFiles failing Machine.fresh ≠ .exhausted ∧
    ∃ tried m, tried.map Prod.fst =
        [fileReference "a.lua", fileReference "b.lua", fileReference "c.lua"] ∧
      Tries failingFiles (stepLimit failing.program) 6 Machine.loaded tried m ∧
      failures tried ++ (Chunk.template failing.program).reports =
        [.error "reference 'a.lua': cannot read a.lua: No such file or directory (os error 2)",
          .error "reference 'b.lua': runtime error: boom",
          .errorAt 1 "the program is not well formed"] := by
  have hends : start failingFiles failing Machine.fresh ≠ .exhausted := by
    intro hloop
    have hreported := compile_failing
    rw [compile, hloop] at hreported
    exact absurd (Except.error.inj hreported) (by decide)
  have hread : ∃ f, (Chunk.template failing.program).read = .error f := by
    cases hread : (Chunk.template failing.program).read with
    | error f => exact ⟨f, rfl⟩
    | ok b =>
      have hno : (Chunk.template failing.program).read.isOk = false := by decide +kernel
      rw [hread] at hno
      cases hno
  obtain ⟨tried, m, htried, htries, -, hreported, -⟩ := compile_reports hends
  refine ⟨hends, tried, m, htried, htries, ?_⟩
  exact Except.error.inj ((hreported (.inr hread)).symm.trans compile_failing)

/-- Whether an action is done. -/
def Step.isDone {α : Type} : Step α → Bool
  | .done _ _ => true
  | _ => false

/-- **A program that gives no function** is rejected, though it refers to no file, is well formed,
and raises no error. -/
theorem exists_report_of_number : ∃ b values m message,
    (Chunk.template "return 1").read = .ok b ∧
    (Chunk.template "return 1").run (stepLimit "return 1") b [.table 6] Machine.loaded =
      .done values m ∧
    compile .empty ⟨"Lua5.4", "return 1", []⟩ = .error [.error message] := by
  have hread : (Chunk.template "return 1").read = .ok [.yields [.number (.int 1)]] := by cbv
  have hdone : ((Chunk.template "return 1").run (stepLimit "return 1")
      [.yields [.number (.int 1)]] [.table 6] Machine.loaded).isDone = true := by decide +kernel
  have hreported : compile .empty ⟨"Lua5.4", "return 1", []⟩ =
      .error [.error "error converting Lua number to function"] :=
    compile_of_reportsOf (by decide +kernel)
  cases hrun : (Chunk.template "return 1").run (stepLimit "return 1")
      [.yields [.number (.int 1)]] [.table 6] Machine.loaded with
  | done values m => exact ⟨_, values, m, _, hread, hrun, hreported⟩
  | raised e m =>
    rw [hrun] at hdone
    cases hdone
  | exhausted =>
    rw [hrun] at hdone
    cases hdone

end Stencil.Lua
