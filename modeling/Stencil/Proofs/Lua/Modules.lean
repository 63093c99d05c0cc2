import Stencil.Proofs.Lua.Confinement.Running
import Stencil.Proofs.Lua.Rendering
set_option autoImplicit false

/-!
# The modules of a program

The referenced files are run one after another before the program. None of them comes by the table
of modules or by the support table, so each table has at the end what the host has put into it: the
support table is as it was made, and among the modules is what the files gave, under their names.
Of several files with one name the last one counts.

## Main definitions

* `Stencil.Lua.Loads` — files run one after another, and what each gives.
* `Stencil.Lua.Table.withModules` — the table with what the files gave.
* `Stencil.Lua.Region.other` — all but two tables.

## Main results

* `Stencil.Lua.loadReferences_eq_done_iff` — the files run without an error.
* `Stencil.Lua.Loads.tables` — what the files leave of the two tables.
* `Stencil.Lua.compile_modules` — the modules with which a program runs.
* `Stencil.Lua.exists_module_overwritten` — of two files of one name the first is not found.
-/

namespace Stencil.Lua

open Run (Confined)

/-! ## Tables with texts for keys -/

/-- A value put under one text is not found under another. -/
theorem Table.get_set_text_of_ne (t : Table) {key other : String} (h : key ≠ other) (v : Value) :
    (t.set (.text key) v).get (.text other) = t.get (.text other) := by
  have hother (k : Value) (hk : k.rawEq (.text key) = true) : k.rawEq (.text other) = false := by
    cases k with
    | string b =>
      have hb : b = Bytes.ofText key := eq_of_beq hk
      rw [hb]
      exact beq_eq_false_iff_ne.mpr fun heq => h (Bytes.ofText_inj.mp heq)
    | _ => cases hk
  have hlookup (entries : List (Value × Value)) :
      lookup (.text other) (replace (.text key) v entries) = lookup (.text other) entries := by
    induction entries with
    | nil =>
      unfold replace
      split
      · rfl
      · have hkey : (Value.text key).rawEq (.text key) = true := by simp [Value.text, Value.rawEq]
        simp [lookup, hother _ hkey]
    | cons e entries ih =>
      obtain ⟨k, w⟩ := e
      rw [replace]
      split
      · rename_i hk
        simp [lookup, hother k hk]
      · rw [lookup, lookup, ih]
  rw [set_text]
  exact hlookup t.entries

/-! ## Modules -/

/-- **What stands for a file among the modules:** what it gave, or `true` if it gave nothing. -/
def Value.asModule (v : Value) : Value := if v.isNil then .bool true else v

/-- There is always something for a file among the modules. -/
@[simp] theorem Value.isNil_asModule (v : Value) : v.asModule.isNil = false := by
  unfold asModule
  split
  · rfl
  · simp_all

/-- What stands for a file is in the region of what the file gave. -/
theorem Value.Within.asModule {R : Region} {v : Value} (h : v.Within R) : v.asModule.Within R := by
  unfold Value.asModule
  split
  · trivial
  · exact h

/-- The table with what a file gave, under the name of the file. -/
def Table.withModule (t : Table) (e : LibraryReference × Value) : Table :=
  t.set (.text (moduleName e.1.path)) e.2.asModule

/-- **The table with what files gave,** one after another. -/
def Table.withModules (t : Table) (loaded : List (LibraryReference × Value)) : Table :=
  loaded.foldl withModule t

section Tables

variable {t : Table} {loaded after : List (LibraryReference × Value)} {r : LibraryReference}

/-- Under a name that no file has, nothing changes. -/
theorem Table.get_withModules_of_forall_ne {name : String}
    (h : ∀ e ∈ loaded, moduleName e.1.path ≠ name) :
    (t.withModules loaded).get (.text name) = t.get (.text name) := by
  induction loaded generalizing t with
  | nil => rfl
  | cons e loaded ih =>
    rw [List.forall_mem_cons] at h
    calc (t.withModules (e :: loaded)).get (.text name)
      _ = (t.withModule e).get (.text name) := ih h.2
      _ = t.get (.text name) := t.get_set_text_of_ne h.1 _

/-- **Under the name of a file is what it gave** if no later one has the same name. -/
theorem Table.get_withModules (before : List (LibraryReference × Value)) (v : Value)
    (h : ∀ e ∈ after, moduleName e.1.path ≠ moduleName r.path) :
    (t.withModules (before ++ (r, v) :: after)).get (.text (moduleName r.path)) = v.asModule := by
  rw [withModules, List.foldl_append, List.foldl_cons]
  exact (get_withModules_of_forall_ne h).trans (get_set_text _ _ v.isNil_asModule)

end Tables

/-! ## Running the files -/

/-- The references to files, in order. -/
def referencedFiles (request : CompileRequest) : List LibraryReference :=
  request.references.filter fun r => !r.isHost

/-- The machine with what a file gave among the modules. -/
def Machine.withModule (m : Machine) (modules : Nat) (e : LibraryReference × Value) : Machine :=
  { m with tables := m.tables.modify modules fun t => t.withModule e }

/-- **Files that are run one after another,** and what each gives. A file is run in the machine
that the one before has left, with what that one gave among the modules. -/
inductive Loads (fs : FileSystem) (steps modules : Nat) :
    Machine → List (LibraryReference × Value) → Machine → Prop where
  | nil (m : Machine) : Loads fs steps modules m [] m
  | cons {m m' m'' : Machine} {r : LibraryReference} {source : String} {v : Value}
      {loaded : List (LibraryReference × Value)}
      (hsource : fs.readText r.path = .ok source)
      (hrun : runChunk (.file r.path source) steps [] m = .done (.ok v) m')
      (hrest : Loads fs steps modules (m'.withModule modules (r, v)) loaded m'') :
      Loads fs steps modules m ((r, v) :: loaded) m''

variable {fs : FileSystem} {steps modules : Nat} {m m' : Machine}

/-- A file is run without an error if it can be read and gives a value. -/
theorem loadReference_eq_done_iff {r : LibraryReference} :
    loadReference fs steps modules r m = .done none m' ↔
      ∃ source v m₁, fs.readText r.path = .ok source ∧
        runChunk (.file r.path source) steps [] m = .done (.ok v) m₁ ∧
        m' = m₁.withModule modules (r, v) := by
  have hput (v : Value) (m₁ : Machine) : (do
      Run.setField modules (.text (moduleName r.path)) (if v.isNil then .bool true else v)
      return none : Run (Option Diagnostic)) m₁ = .done none (m₁.withModule modules (r, v)) := rfl
  unfold loadReference
  cases hsource : fs.readText r.path with
  | error e => simp [Run.pure_eq_done_iff]
  | ok source =>
    simp only [Run.bind_eq_done_iff, Except.ok.injEq]
    constructor
    · rintro ⟨e | v, m₁, hrun, hrest⟩
      · simp [Run.pure_eq_done_iff] at hrest
      · obtain ⟨-, rfl⟩ := Step.done.inj ((hput v m₁).symm.trans hrest)
        exact ⟨source, v, m₁, rfl, hrun, rfl⟩
    · rintro ⟨_, v, m₁, rfl, hrun, rfl⟩
      exact ⟨.ok v, m₁, hrun, hput v m₁⟩

/-- **The files are run without an error** if each can be read and gives a value. -/
theorem loadReferences_eq_done_iff {rs : List LibraryReference} :
    loadReferences fs steps modules rs m = .done [] m' ↔
      ∃ loaded, loaded.map Prod.fst = rs ∧ Loads fs steps modules m loaded m' := by
  induction rs generalizing m with
  | nil =>
    rw [loadReferences, Run.pure_eq_done_iff]
    constructor
    · rintro ⟨-, rfl⟩
      exact ⟨[], rfl, .nil m⟩
    · rintro ⟨loaded, hloaded, hloads⟩
      obtain rfl := List.map_eq_nil_iff.mp hloaded
      cases hloads
      exact ⟨rfl, rfl⟩
  | cons r rs ih =>
    rw [loadReferences, Run.bind_eq_done_iff]
    constructor
    · rintro ⟨d, m₁, hfirst, hrest⟩
      obtain ⟨ds, m₂, hds, hpure⟩ := Run.bind_eq_done_iff.mp hrest
      obtain ⟨hnil, rfl⟩ := Run.pure_eq_done_iff.mp hpure
      obtain ⟨hd, rfl⟩ := List.append_eq_nil_iff.mp hnil
      obtain rfl := Option.toList_eq_nil_iff.mp hd
      obtain ⟨source, v, m₃, hsource, hrun, rfl⟩ := loadReference_eq_done_iff.mp hfirst
      obtain ⟨loaded, rfl, hloads⟩ := ih.mp hds
      exact ⟨(r, v) :: loaded, rfl, .cons hsource hrun hloads⟩
    · rintro ⟨loaded, hloaded, hloads⟩
      cases hloads with
      | nil => cases hloaded
      | cons hsource hrun hrest =>
        obtain ⟨rfl, rfl⟩ := List.cons.inj hloaded
        refine ⟨none, _, loadReference_eq_done_iff.mpr ⟨_, _, _, hsource, hrun, rfl⟩, ?_⟩
        exact (Run.bind_done (ih.mpr ⟨_, rfl, hrest⟩)).trans rfl

/-! ## What the files come by -/

/-- **All but two tables.** -/
def Region.other (a b : Nat) : Region where
  tables n := n ≠ a ∧ n ≠ b
  cells _ := True
  closures _ := True
  inclusions _ := True

section Confined

variable {R : Region}

/-- A chunk stays in a region that has the globals. -/
theorem runChunk_confined (hglobals : R.tables globalTable) (c : Chunk) (steps : Nat)
    {args : Arguments} (hargs : Arguments.Within R args) :
    Confined R (fun r => ∀ v, r = .ok v → v.Within R) (runChunk c steps args) := by
  unfold runChunk
  split
  · exact .pure (by simp)
  · have hrun (b : Block) : Confined R (Arguments.Within R) (c.run steps b args) := by
      refine (Confined.newCell (v := .table globalTable) hglobals).bind fun cell hcell => ?_
      refine (Confined.newClosure (by simpa [Env.Within] using hcell)).bind fun f hf => ?_
      exact call_confined steps .start f args hf hargs
    refine (hrun _).protect.bind fun r hr => ?_
    split
    · exact .pure (by simp)
    · rename_i values
      refine .pure ?_
      rintro _ ⟨⟩
      exact (hr.1 values rfl).headD

/-- **What files leave of the tables outside a region:** the modules, with what the files gave, and
each other table as it was.

**Proof sketch.** Induction on the run. A file changes no table outside, and gives a value of the
region; so the machine stays within the region when the value is put among the modules. -/
theorem Loads.tables {loaded : List (LibraryReference × Value)}
    (h : Loads fs steps modules m loaded m') (hm : m.Within R) (hglobals : R.tables globalTable)
    (hmodules : ¬ R.tables modules) :
    m'.tables.getD modules {} = (m.tables.getD modules {}).withModules loaded ∧
      ∀ n, ¬ R.tables n → n ≠ modules → m'.tables.getD n {} = m.tables.getD n {} := by
  induction h with
  | nil m => exact ⟨rfl, fun _ _ _ => rfl⟩
  | @cons m m' m'' r source v loaded hsource hrun hrest ih =>
    have hconfined := runChunk_confined hglobals (.file r.path source) steps .nil
    have hwithin := hconfined.within m hm
    have hspares := hconfined.spares m hm
    rw [hrun] at hwithin hspares
    obtain ⟨hv, hm'⟩ := hwithin
    have hsize : modules < m'.tables.size :=
      Nat.lt_of_not_le fun hle => hmodules (hm'.newTables modules hle)
    have hset (t : Table) (ht : t.Within R) : (t.withModule (r, v)).Within R :=
      ht.set trivial (hv v rfl).asModule
    obtain ⟨hlast, hothers⟩ := ih (hm'.modifyTable hset modules)
    refine ⟨?_, fun n hn hne => ?_⟩
    · calc m''.tables.getD modules {}
        _ = ((m'.tables.getD modules {}).withModule (r, v)).withModules loaded := by
            rw [hlast]
            exact congrArg (Table.withModules · loaded) (getD_modify_self hsize _)
        _ = ((m.tables.getD modules {}).withModule (r, v)).withModules loaded := by
            rw [hspares modules hmodules]
    · calc m''.tables.getD n {}
        _ = m'.tables.getD n {} := (hothers n hn hne).trans (getD_modify_of_ne (Ne.symm hne) _)
        _ = m.tables.getD n {} := hspares n hn

end Confined

/-- **The libraries lead to each other only.** -/
theorem libraries_within {R : Region} (h : ∀ n < 5, R.tables n) :
    ∀ t ∈ Machine.fresh.tables, t.Within R := by
  have htable {entries : List (Value × Value)}
      (hentries : ∀ e ∈ entries, e.1.Within R ∧ e.2.Within R) : Table.Within R { entries } :=
    ⟨by simp, hentries⟩
  have hbase : ∀ e ∈ baseEntries, e.1.Within R ∧ e.2.Within R := by
    simp [baseEntries, functionEntry]
  have hglobals : ∀ e ∈ globalEntries, e.1.Within R ∧ e.2.Within R := by
    simp only [globalEntries, List.forall_mem_append]
    exact ⟨hbase, by simp [globalTable, h]⟩
  simp only [Machine.fresh, List.mem_toArray, List.forall_mem_cons]
  refine ⟨htable hglobals, htable ?_, htable ?_, htable ?_, htable ?_, by simp⟩
  · simp [stringEntries, functionEntry]
  · simp [tableEntries, functionEntry]
  · simp [mathEntries, functionEntry]
  · simp [utf8Entries, functionEntry]

/-- The libraries do not lead to the support table or to the table of modules. -/
theorem loaded_within : Machine.loaded.Within (.other 5 6) where
  tables n hn := by
    have hother : ∀ n < 5, (Region.other 5 6).tables n := fun n hn => ⟨by omega, by omega⟩
    have hlibrary := getD_of_forall_mem (libraries_within hother) .empty n
    have htables : Machine.loaded.tables.getD n {} = Machine.fresh.tables.getD n {} := by
      have hsize : Machine.fresh.tables.size = 5 := rfl
      obtain ⟨hsupport, hmodules⟩ := hn
      simp only [Machine.loaded, Array.getD_eq_getD_getElem?, Array.getElem?_push, Array.size_push,
        hsize, if_neg hsupport, if_neg hmodules]
    rwa [htables]
  cells n _ := trivial
  closures n c _ hc := by simp [Machine.loaded, Machine.fresh] at hc
  strings := ⟨by decide, by decide⟩
  newTables n hn := by
    have hsize : Machine.loaded.tables.size = 7 := rfl
    exact ⟨by omega, by omega⟩
  newCells _ _ := trivial
  newClosures _ _ := trivial

/-- **What files leave of the modules:** the first ones, with what the files gave. -/
theorem Loads.modules_eq {loaded : List (LibraryReference × Value)}
    (h : Loads fs steps 6 Machine.loaded loaded m') :
    m'.tables.getD 6 {} = moduleTable.withModules loaded :=
  (h.tables loaded_within ⟨by decide, by decide⟩ fun hn => hn.2 rfl).1

/-! ## Files of one name -/

/-- A chunk that does nothing but give a text. -/
theorem runChunk_string (steps : Nat) {c : Chunk} {b : Bytes}
    (hread : c.read = .ok [.yields [.string b]]) (args : Arguments) (m : Machine) :
    ∃ m', runChunk c (steps + 6) args m = .done (.ok (.string b)) m' ∧ m'.tables = m.tables := by
  let body : Block := [.yields [.string b]]
  let f : Closure := ⟨[], true, body, [⟨environmentName, m.cells.size, 0⟩], 0, c.name⟩
  let m₁ := (m.pushCell (.table globalTable)).pushClosure f
  have hclosure : m₁.closures[m.closures.size]? = some f := by
    simp [m₁, Machine.pushClosure, Machine.pushCell]
  have hyields : execute (steps + 4) (f.chunkFrame .start args) (.yields [.string b]) m₁ =
      .done (.returned [.string b]) m₁ := execute_yields_value rfl (by simp) evaluate_string
  have hcall : call (steps + 6) .start (.closure m.closures.size) args m₁ =
      .done [.string b] m₁ := by
    rw [call_chunk hclosure rfl rfl (by decide) (by decide)]
    exact congrArg Step.results (executeBlock_returned hyields)
  have hrun : c.run (steps + 6) body args m = .done [.string b] m₁ := hcall
  refine ⟨m₁, ?_, rfl⟩
  rw [runChunk, hread]
  exact (Run.bind_done (Run.protect_done hrun)).trans rfl

/-- A file that does nothing but give a text gives that text, and the next files run behind it. -/
theorem Loads.cons_string {r : LibraryReference} {source : String} {b : Bytes} {v : Value}
    {loaded : List (LibraryReference × Value)} (hsource : fs.readText r.path = .ok source)
    (hread : (Chunk.file r.path source).read = .ok [.yields [.string b]])
    (h : Loads fs (steps + 6) modules m ((r, v) :: loaded) m') :
    v = .string b ∧ ∃ m₁, Loads fs (steps + 6) modules m₁ loaded m' := by
  cases h with
  | cons hsource' hrun hrest =>
    obtain rfl := Except.ok.inj (hsource.symm.trans hsource')
    obtain ⟨m₁, hchunk, -⟩ := runChunk_string steps hread [] m
    obtain ⟨hv, -⟩ := Step.done.inj (hrun.symm.trans hchunk)
    exact ⟨Except.ok.inj hv, _, hrest⟩

/-- Two files of one name. -/
def namesakeFiles : FileSystem :=
  (FileSystem.empty.insert ["a", "m.lua"] (.file "return 'first'".toUTF8)).insert ["b", "m.lua"]
    (.file "return 'second'".toUTF8)

/-- The reference of a template to a file. -/
def fileReference (name : String) : LibraryReference := ⟨name, ⟨name⟩, .directive⟩

/-- A program that gives a function, and refers to both files. -/
def namesakes : CompileRequest where
  language := "Lua5.4"
  program := "return function() end"
  references := [fileReference "a/m.lua", fileReference "b/m.lua"]

/-- That program is compiled. -/
theorem exists_compile_namesakes : ∃ s, compile namesakeFiles namesakes = .ok s := by
  have hok : (compile namesakeFiles namesakes).isOk = true := by decide +kernel
  cases hs : compile namesakeFiles namesakes with
  | ok s => exact ⟨s, rfl⟩
  | error ds =>
    rw [hs] at hok
    cases hok

/-- What the two files give. -/
theorem Loads.eq_of_namesakes {loaded : List (LibraryReference × Value)}
    (h : Loads namesakeFiles (stepLimit namesakes.program) modules m loaded m')
    (hloaded : loaded.map Prod.fst = referencedFiles namesakes) :
    loaded =
      [(fileReference "a/m.lua", .text "first"), (fileReference "b/m.lua", .text "second")] := by
  have hfiles : referencedFiles namesakes =
      [fileReference "a/m.lua", fileReference "b/m.lua"] := by decide
  have hfirst : namesakeFiles.readText ⟨"a/m.lua"⟩ = .ok "return 'first'" := by decide +kernel
  have hsecond : namesakeFiles.readText ⟨"b/m.lua"⟩ = .ok "return 'second'" := by decide +kernel
  obtain ⟨steps, hsteps⟩ : ∃ steps, stepLimit namesakes.program = steps + 6 := ⟨_, rfl⟩
  rw [hfiles] at hloaded
  rw [hsteps] at h
  match loaded, hloaded with
  | [(_, v), (_, w)], rfl =>
    obtain ⟨rfl, m₁, h⟩ := h.cons_string hfirst (by cbv)
    obtain ⟨rfl, -⟩ := h.cons_string hsecond (by cbv)
    rfl

/-! ## Compiling -/

/-- If a program is compiled, the files have been run without an error, and then the program has
given a function. -/
theorem exists_loads_of_compile {request : CompileRequest} {s : Session}
    (h : compile fs request = .ok s) :
    ∃ loaded m b, loaded.map Prod.fst = referencedFiles request ∧
      Loads fs (stepLimit request.program) 6 Machine.loaded loaded m ∧
      (Chunk.template request.program).read = .ok b ∧
      runProgram (.template request.program) b (stepLimit request.program) 6 m =
        .done (.ok s.entry) s.machine ∧
      s.support = 5 := by
  have hstart : start fs request Machine.fresh = .done (.ok (s.entry, s.support)) s.machine := by
    unfold compile at h
    split at h
    · cases h
      assumption
    all_goals cases h
  rw [start_eq, Run.bind_eq_done_iff] at hstart
  obtain ⟨wrong, m, hloads, hrest⟩ := hstart
  cases hread : (Chunk.template request.program).read with
  | error e => simp only [hread, Run.pure_eq_done_iff, reduceCtorEq, false_and] at hrest
  | ok b =>
    simp only [hread] at hrest
    by_cases hwrong : wrong.isEmpty
    · rw [if_pos hwrong, Run.bind_eq_done_iff] at hrest
      obtain ⟨entry, m', hprogram, hpure⟩ := hrest
      obtain ⟨hentry, rfl⟩ := Run.pure_eq_done_iff.mp hpure
      rw [List.isEmpty_iff.mp hwrong] at hloads
      obtain ⟨loaded, hloaded, hloads⟩ := loadReferences_eq_done_iff.mp hloads
      cases entry with
      | error ds => cases hentry
      | ok v =>
        obtain ⟨rfl, hsupport⟩ := Prod.mk.inj (Except.ok.inj hentry)
        exact ⟨loaded, m, b, hloaded, hloads, rfl, hprogram, hsupport.symm⟩
    · rw [if_neg hwrong, Run.pure_eq_done_iff] at hrest
      cases hrest.1

/-- **A program is compiled as it runs,** once the files have been run without an error. -/
theorem compile_of_runProgram {fs : FileSystem} {request : CompileRequest} {b : Block}
    {loaded : List (LibraryReference × Value)} {m : Machine}
    (hloaded : loaded.map Prod.fst = referencedFiles request)
    (hloads : Loads fs (stepLimit request.program) 6 Machine.loaded loaded m)
    (hread : (Chunk.template request.program).read = .ok b)
    {result : Except (List Diagnostic) Value} {m' : Machine}
    (hrun : runProgram (.template request.program) b (stepLimit request.program) 6 m =
      .done result m') :
    compile fs request =
      result.map fun entry => ⟨m', entry, 5, stepLimit request.program⟩ := by
  have hfiles := loadReferences_eq_done_iff.mpr ⟨loaded, hloaded, hloads⟩
  have hstart : start fs request Machine.fresh = .done (result.map (·, 5)) m' := by
    rw [start_eq]
    refine (Run.bind_done hfiles).trans ?_
    rw [hread]
    exact (Run.bind_done hrun).trans rfl
  rw [compile, hstart]
  cases result <;> rfl

/-- **The modules with which a program runs.** If a program is compiled, the files that it refers to
have been run one after another, and then the program with a table of modules. The support table is
as it was made, and it is among the modules if no file has its name. Among the modules is also what
each file gave, under the name of the file, if no later one has the same name; the name of the
support table aside.

**Proof sketch.** The files come by neither of the two tables: the libraries do not lead to them,
and what a file gives does not either. So the table of modules has what the host puts into it. -/
theorem compile_modules {request : CompileRequest} {s : Session}
    (h : compile fs request = .ok s) :
    ∃ loaded modules m b, loaded.map Prod.fst = referencedFiles request ∧
      Loads fs (stepLimit request.program) modules Machine.loaded loaded m ∧
      (Chunk.template request.program).read = .ok b ∧
      runProgram (.template request.program) b (stepLimit request.program) modules m =
        .done (.ok s.entry) s.machine ∧
      m.tables.getD s.support {} = supportTable ∧
      ((∀ e ∈ loaded, moduleName e.1.path ≠ supportName) →
        (m.tables.getD modules {}).get (.text supportName) = .table s.support) ∧
      ∀ before r v after, loaded = before ++ (r, v) :: after → moduleName r.path ≠ supportName →
        (∀ e ∈ after, moduleName e.1.path ≠ moduleName r.path) →
        (m.tables.getD modules {}).get (.text (moduleName r.path)) = v.asModule := by
  obtain ⟨loaded, m, b, hloaded, hloads, hread, hprogram, hsupport⟩ := exists_loads_of_compile h
  obtain ⟨hmodules, hothers⟩ :=
    hloads.tables loaded_within ⟨by decide, by decide⟩ fun hn => hn.2 rfl
  refine ⟨loaded, 6, m, b, hloaded, hloads, hread, hprogram, ?_, fun hnames => ?_, ?_⟩
  · rw [hsupport]
    exact hothers 5 (fun hn => hn.1 rfl) (by decide)
  · have hfirst : Machine.loaded.tables.getD 6 {} = moduleTable := rfl
    rw [hmodules, Table.get_withModules_of_forall_ne hnames, hsupport, hfirst]
    cbv
  · rintro before r v after rfl - hafter
    rw [hmodules]
    exact Table.get_withModules before v hafter

/-- **Of two files of one name** the program finds only what the second one gives. -/
theorem compile_modules_namesakes : ∃ s modules m b,
    compile namesakeFiles namesakes = .ok s ∧
    runProgram (.template namesakes.program) b (stepLimit namesakes.program) modules m =
      .done (.ok s.entry) s.machine ∧
    (m.tables.getD modules {}).get (.text supportName) = .table s.support ∧
    (m.tables.getD modules {}).get (.text "m") = .text "second" := by
  obtain ⟨s, hs⟩ := exists_compile_namesakes
  obtain ⟨loaded, modules, m, b, hloaded, hloads, -, hprogram, -, hsupport, hmodules⟩ :=
    compile_modules hs
  obtain rfl := hloads.eq_of_namesakes hloaded
  have hname : moduleName (fileReference "b/m.lua").path = "m" := by decide
  have hsecond := hmodules [(fileReference "a/m.lua", .text "first")] (fileReference "b/m.lua")
    (.text "second") [] rfl (by decide) (by simp)
  rw [hname] at hsecond
  exact ⟨s, modules, m, b, hs, hprogram, hsupport (by decide), hsecond⟩

/-- So what the first one gives is not found under its name. -/
theorem exists_module_overwritten : ∃ s loaded m b,
    compile namesakeFiles namesakes = .ok s ∧
    loaded.map Prod.fst = referencedFiles namesakes ∧
    Loads namesakeFiles (stepLimit namesakes.program) 6 Machine.loaded loaded m ∧
    (Chunk.template namesakes.program).read = .ok b ∧
    runProgram (.template namesakes.program) b (stepLimit namesakes.program) 6 m =
      .done (.ok s.entry) s.machine ∧
    ¬ ∀ e ∈ loaded, (m.tables.getD 6 {}).get (.text (moduleName e.1.path)) = e.2.asModule := by
  obtain ⟨s, hs⟩ := exists_compile_namesakes
  obtain ⟨loaded, m, b, hloaded, hloads, hread, hprogram, -⟩ := exists_loads_of_compile hs
  obtain ⟨hmodules, -⟩ :=
    hloads.tables loaded_within ⟨by decide, by decide⟩ fun hn => hn.2 rfl
  refine ⟨s, loaded, m, b, hs, hloaded, hloads, hread, hprogram, fun hall => ?_⟩
  obtain rfl := hloads.eq_of_namesakes hloaded
  -- The first file is looked for under the name of the second.
  have hfirst := hall (fileReference "a/m.lua", .text "first") (List.mem_cons_self ..)
  have hname : moduleName (fileReference "a/m.lua").path =
      moduleName (fileReference "b/m.lua").path := by decide
  have hsecond (t : Table) : (t.withModules
      [(fileReference "a/m.lua", .text "first"), (fileReference "b/m.lua", .text "second")]).get
        (.text (moduleName (fileReference "b/m.lua").path)) = .text "second" :=
    Table.get_withModules [(fileReference "a/m.lua", .text "first")] (.text "second") (by simp)
  rw [hmodules, hname, hsecond] at hfirst
  have hsame : Bytes.ofText "second" = Bytes.ofText "first" := Value.string.inj hfirst
  exact absurd (Bytes.ofText_inj.mp hsame) (by decide)

end Stencil.Lua
