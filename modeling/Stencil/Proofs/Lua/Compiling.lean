import Stencil.Proofs.Lua.Outline
import Stencil.Proofs.Lua.Writing
set_option autoImplicit false

/-!
# Compiling a program

A program for the portions of a template is compiled without an error: the prelude finds its
library functions, the imports are found, and what the program gives is a function that calls
the one that renders.

## Main definitions

* `Stencil.Lua.Furnished` — a machine with the functions that the prelude needs.
* `Stencil.Lua.Bare` — a program that sees them.
* `Stencil.Lua.Entry` — the function that a program gives.
* `Stencil.Lua.Found` — a path that comes to a value.
* `Stencil.Lua.Outline.Resolves` — a program whose imports are found.
* `Stencil.Lua.Session.Ready` — a session that renders portions.

## Main results

* `Stencil.Lua.executeBlock_prelude` — the statements of the prelude.
* `Stencil.Lua.executeBlock_program` — the statements of a program.
* `Stencil.Lua.compile_program` — from the text of a program to a session that is ready.
-/

namespace Stencil.Lua

/-! ## Libraries -/

/-- The names of the globals that the prelude and the imports need. -/
def neededGlobals : List String := ["table", "tostring", "type", "string", "_G", "error"]

/-- The value under a name in a table that is a global. -/
def Machine.member (m : Machine) (library name : String) : Value :=
  match m.global library with
  | .table n => (m.tables.getD n {}).get (.text name)
  | _ => .nil

/-- **A machine with the functions that find imports** under their names. -/
structure Furnished (m : Machine) : Prop where
  table : ∃ n, m.global "table" = .table n
  type : m.global "type" = .builtin (.base .type)
  gmatch : m.member "string" "gmatch" = .builtin (.string .gmatch)
  error : m.global "error" = .builtin (.base .error)

/-- What is under the names depends on the tables alone. -/
theorem Furnished.congr {m m' : Machine} (h : Furnished m) (hm : m'.tables = m.tables) :
    Furnished m' := by
  have hglobal (name : String) : m'.global name = m.global name := by
    rw [Machine.global, Machine.global, hm]
  have hmember (library name : String) : m'.member library name = m.member library name := by
    rw [Machine.member, Machine.member, hglobal, hm]
  refine ⟨?_, ?_, ?_, ?_⟩
  · simpa only [hglobal] using h.table
  · rw [hglobal, h.type]
  · rw [hmember, h.gmatch]
  · rw [hglobal, h.error]

/-- An entry of a library. -/
theorem get_library {m : Machine} (h : Grows Machine.fresh.tables m.tables) {n : Nat}
    {entries : List (Value × Value)} (hn : Machine.fresh.tables[n]? = some { entries })
    (name : String) :
    (m.tables.getD n {}).get (.text name) = Table.lookup (.text name) entries := by
  rw [Array.getD_eq_getD_getElem?, h n _ hn]
  rfl

/-- A global of the libraries. -/
theorem global_library {m : Machine} (h : Grows Machine.fresh.tables m.tables) (name : String) :
    m.global name = Table.lookup (.text name) globalEntries := get_library h rfl name

/-- A function of a library. -/
theorem member_library {m : Machine} (h : Grows Machine.fresh.tables m.tables)
    {library : String} {n : Nat} {entries : List (Value × Value)}
    (htable : Table.lookup (.text library) globalEntries = .table n)
    (hn : Machine.fresh.tables[n]? = some { entries }) (name : String) :
    m.member library name = Table.lookup (.text name) entries := by
  rw [Machine.member, global_library h, htable]
  exact get_library h hn name

/-- **The libraries have the functions** that find imports. -/
theorem Furnished.of_libraries {m : Machine} (h : Grows Machine.fresh.tables m.tables) :
    Furnished m where
  table := ⟨2, (global_library h "table").trans (by cbv)⟩
  type := (global_library h "type").trans (by cbv)
  gmatch := (member_library h (n := 1) (by cbv) rfl "gmatch").trans (by cbv)
  error := (global_library h "error").trans (by cbv)

/-- **A program that sees the functions** that find imports: no variable hides a global that is
needed. -/
structure Bare (m : Machine) (env : Env) : Prop where
  furnished : Furnished m
  globals : Binds m env environmentName (.table globalTable)
  free : ∀ name ∈ neededGlobals, Env.find? env name.toList = none

section Bare

variable {fuel line : Nat} {f : Frame} {m : Machine}

/-- The functions are still seen behind the declaration of another name. -/
theorem Bare.declare (h : Bare m f.env) (name : String) (v : Value)
    (hname : name ∉ "_ENV" :: neededGlobals) :
    Bare (m.pushCell v) (f.bind name.toList m.cells.size) := by
  rw [List.mem_cons, not_or] at hname
  have henvironment : name.toList ≠ environmentName :=
    fun heq => hname.1 (String.toList_inj.mp heq)
  refine ⟨h.furnished.congr rfl, h.globals.declare henvironment, fun global hglobal => ?_⟩
  rw [← h.free global hglobal]
  refine List.find?_cons_of_neg ?_
  have hne : name.toList ≠ global.toList :=
    fun heq => hname.2 (String.toList_inj.mp heq ▸ hglobal)
  simpa using hne

/-- The value of a global. -/
theorem evaluate_needed (h : Bare m f.env) {name : String} (hname : name ∈ neededGlobals) :
    evaluate (fuel + 2) f (.var name.toList) m = .done (m.global name) m :=
  evaluate_global (h.free name hname) h.globals

/-- The value under a name in a table that is a global. -/
theorem evaluate_member (h : Bare m f.env) {library : String} (name : String)
    (hlibrary : library ∈ neededGlobals) {n : Nat} (htable : m.global library = .table n) :
    evaluate (fuel + 3) f (.field line (.var library.toList) name.toList) m =
      .done (m.member library name) m := by
  have hobject : evaluate (fuel + 2) f (.var library.toList) m = .done (.table n) m := by
    rw [evaluate_needed h hlibrary, htable]
  have hkey : evaluate (fuel + 2) f (.string (Bytes.ofChars name.toList)) m =
      .done (.text name) m := evaluate_string
  rw [Machine.member, htable]
  exact evaluate_index hobject hkey

/-! ## The prelude -/

/-- **The statements of the library functions.** Each of them adds a variable that hides no global
that is needed. -/
theorem executeBlock_functions (base : Nat) (whole : Block) {modules : Nat}
    (h : Bare m f.env) (hvarargs : f.varargs = [.table modules]) :
    ∃ m' env', (∀ fuel rest, executeBlock (fuel + 13) f base whole (preludeTree ++ rest) m =
        executeBlock (fuel + 8) (f.withEnv env') base whole rest m') ∧
      Bare m' env' ∧ Prepared m' env' modules ∧
      Binds m' env' "__concat".toList (m.member "table" "concat") ∧
      Binds m' env' "__tostring".toList (m.global "tostring") ∧
      m'.tables = m.tables ∧ m.Extends m' := by
  -- The table of modules.
  let f₁ := f.withEnv (f.bind "__modules".toList m.cells.size)
  let m₁ := m.pushCell (.table modules)
  have hmodules (fuel : Nat) : execute (fuel + 12) f
      (.declare [("__modules".toList, .regular)] [.varargs 2]) m = .done (.next f₁.env) m₁ := by
    have hvalues : evaluateList (fuel + 11) f [.varargs 2] m = .done [.table modules] m := by
      rw [evaluateList_one, evaluateAll, hvarargs]
      rfl
    exact execute_declare hvalues
  have h₁ : Bare m₁ f₁.env := h.declare "__modules" _ (by decide)
  -- The functions that write.
  let f₂ := f₁.withEnv (f₁.bind "__concat".toList m₁.cells.size)
  let m₂ := m₁.pushCell (m.member "table" "concat")
  have hconcat (fuel : Nat) :
      evaluate (fuel + 8) f₁ (.field 3 (.var "table".toList) "concat".toList) m₁ =
      .done (m.member "table" "concat") m₁ := by
    obtain ⟨n, hn⟩ := h₁.furnished.table
    exact evaluate_member h₁ "concat" (by decide) hn
  have h₂ : Bare m₂ f₂.env := h₁.declare "__concat" _ (by decide)
  let f₃ := f₂.withEnv (f₂.bind "__tostring".toList m₂.cells.size)
  let m₃ := m₂.pushCell (m.global "tostring")
  have htostring (fuel : Nat) : evaluate (fuel + 7) f₂ (.var "tostring".toList) m₂ =
      .done (m.global "tostring") m₂ := evaluate_needed h₂ (by decide)
  have h₃ : Bare m₃ f₃.env := h₂.declare "__tostring" _ (by decide)
  -- The functions that find imports.
  let f₄ := f₃.withEnv (f₃.bind "__type".toList m₃.cells.size)
  let m₄ := m₃.pushCell (.builtin (.base .type))
  have htype (fuel : Nat) : evaluate (fuel + 6) f₃ (.var "type".toList) m₃ =
      .done (.builtin (.base .type)) m₃ := by
    rw [evaluate_needed h₃ (by decide), h₃.furnished.type]
  have h₄ : Bare m₄ f₄.env := h₃.declare "__type" _ (by decide)
  let f₅ := f₄.withEnv (f₄.bind "__gmatch".toList m₄.cells.size)
  let m₅ := m₄.pushCell (.builtin (.string .gmatch))
  have hgmatch (fuel : Nat) :
      evaluate (fuel + 5) f₄ (.field 6 (.var "string".toList) "gmatch".toList) m₄ =
      .done (.builtin (.string .gmatch)) m₄ := by
    have hmember := h₄.furnished.gmatch
    obtain ⟨n, hn⟩ : ∃ n, m₄.global "string" = .table n := by
      unfold Machine.member at hmember
      split at hmember
      · exact ⟨_, ‹_›⟩
      · cases hmember
    rw [evaluate_member h₄ "gmatch" (by decide) hn, hmember]
  have h₅ : Bare m₅ f₅.env := h₄.declare "__gmatch" _ (by decide)
  -- What is bound in the end.
  have hmodules₃ : Binds m₃ f₃.env "__modules".toList (.table modules) :=
    ((Binds.declared rfl).declare (by simp)).declare (by simp)
  have htype₅ : Binds m₅ f₅.env "__type".toList (.builtin (.base .type)) :=
    (Binds.declared rfl).declare (by simp)
  have hconcat₃ : Binds m₃ f₃.env "__concat".toList (m.member "table" "concat") :=
    (Binds.declared rfl).declare (by simp)
  have htostring₅ : Binds m₅ f₅.env "__tostring".toList (m.global "tostring") :=
    ((Binds.declared rfl).declare (by simp)).declare (by simp)
  refine ⟨m₅, f₅.env, fun fuel rest => ?_, h₅,
    ⟨h₅.globals, (hmodules₃.declare (by simp)).declare (by simp), htype₅, .declared rfl⟩,
    (hconcat₃.declare (by simp)).declare (by simp), htostring₅, rfl, ?_⟩
  · calc executeBlock (fuel + 13) f base whole (preludeTree ++ rest) m
      _ = executeBlock (fuel + 12) f₁ base whole (preludeTree.drop 1 ++ rest) m₁ :=
          executeBlock_next (hmodules fuel)
      _ = executeBlock (fuel + 11) f₂ base whole (preludeTree.drop 2 ++ rest) m₂ :=
          executeBlock_declare rfl (by simp [Exp.field]) (hconcat fuel)
      _ = executeBlock (fuel + 10) f₃ base whole (preludeTree.drop 3 ++ rest) m₃ :=
          executeBlock_declare rfl (by simp) (htostring fuel)
      _ = executeBlock (fuel + 9) f₄ base whole (preludeTree.drop 4 ++ rest) m₄ :=
          executeBlock_declare rfl (by simp) (htype fuel)
      _ = executeBlock (fuel + 8) (f.withEnv f₅.env) base whole rest m₅ :=
          executeBlock_declare rfl (by simp [Exp.field]) (hgmatch fuel)
  · exact (((Machine.Extends.pushCell m _).trans (.pushCell m₁ _)).trans (.pushCell m₂ _)).trans
      ((Machine.Extends.pushCell m₃ _).trans (.pushCell m₄ _))

/-- **The statement of the function that finds imports,** behind those of the functions that it
calls. Every other name stays bound. -/
theorem executeBlock_importFunction (base l : Nat) (whole : Block) {modules : Nat}
    (h : Bare m f.env) (hprepared : Prepared m f.env modules) :
    ∃ m' env' n c, (∀ fuel rest,
        executeBlock (fuel + 8) f base whole (importFunction l :: rest) m =
          executeBlock (fuel + 7) (f.withEnv env') base whole rest m') ∧
      Importer m' n modules c ∧ Binds m' env' "__import".toList (.closure n) ∧
      (∀ name x, "__import".toList ≠ name → Binds m f.env name x → Binds m' env' name x) ∧
      m'.tables = m.tables ∧ m.Extends m' := by
  let env' := f.bind "__import".toList m.cells.size
  let c : Closure := ⟨["path".toList], false, importBody, env', f.level, f.chunk⟩
  let m' := (m.pushCell (.closure m.closures.size)).pushClosure c
  have hgrows : m.Extends m' := (Machine.Extends.pushCell m _).trans (.pushClosure _ c)
  have hprepared' : Prepared m' env' modules :=
    (hprepared.grow hgrows.cells).cons (by simp [Prepared.names, environmentName])
  have h' : Bare m' env' :=
    have h := h.declare "__import" (.closure m.closures.size) (by decide)
    ⟨h.furnished.congr rfl, h.globals, h.free⟩
  have himporter : Importer m' m.closures.size modules c :=
    ⟨by simp [m', Machine.pushClosure, Machine.pushCell], rfl, rfl, rfl, hprepared',
      h'.free "_G" (by decide), h'.free "error" (by decide)⟩
  have himport (fuel : Nat) : execute (fuel + 7) f (importFunction l) m = .done (.next env') m' :=
    execute_declareFunction
  exact ⟨m', env', m.closures.size, c, fun fuel rest => executeBlock_next (himport fuel),
    himporter, .head (by simp [m', Machine.pushClosure, Machine.pushCell]),
    fun _ _ hname hx => (hx.grow hgrows.cells).cons hname, rfl, hgrows⟩

/-- **The statements of the prelude** bind the library functions and the function that finds
imports. -/
theorem executeBlock_prelude (base l : Nat) (whole : Block) {modules : Nat}
    (h : Bare m f.env) (hvarargs : f.varargs = [.table modules]) :
    ∃ m' env' n c, (∀ fuel rest, executeBlock (fuel + 13) f base whole
          (preludeTree ++ importFunction l :: rest) m =
        executeBlock (fuel + 7) (f.withEnv env') base whole rest m') ∧
      Binds m' env' "__concat".toList (m.member "table" "concat") ∧
      Binds m' env' "__tostring".toList (m.global "tostring") ∧ Importer m' n modules c ∧
      Binds m' env' "__import".toList (.closure n) ∧ m'.tables = m.tables ∧
      m.Extends m' := by
  obtain ⟨m₁, env₁, hfunctions, hbare, hprepared, hconcat, htostring, htables, hextends⟩ :=
    executeBlock_functions base whole h hvarargs
  obtain ⟨m₂, env₂, n, c, himport, himporter, hbinds, hkeep, htables', hextends'⟩ :=
    executeBlock_importFunction (f := f.withEnv env₁) base l whole hbare hprepared
  exact ⟨m₂, env₂, n, c, fun fuel rest => (hfunctions fuel _).trans (himport fuel rest),
    hkeep _ _ (by simp) hconcat, hkeep _ _ (by simp) htostring, himporter, hbinds,
    htables'.trans htables, hextends.trans hextends'⟩

end Bare

/-! ## The functions of a program -/

/-- **The function that a program gives,** which calls the one that renders. -/
structure Entry (as : List Passed) (render : Nat) (m : Machine) (n : Nat) (c : Closure) :
    Prop where
  closure : m.closures[n]? = some c
  params : c.params = ["__state".toList]
  variadic : c.variadic = false
  body : ∃ xs l, c.body = [.yields [.call l (.var "__render".toList) xs]] ∧
    List.Forall₂ Passed.Stands as xs
  render : Binds m c.env "__render".toList (.closure render)

/-- The function that a program gives stays what it is when variables and functions have grown. -/
theorem Entry.grow {as : List Passed} {render n : Nat} {m m' : Machine} {c : Closure}
    (h : Entry as render m n c) (hcells : Grows m.cells m'.cells)
    (hclosures : Grows m.closures m'.closures) : Entry as render m' n c :=
  ⟨hclosures _ _ h.closure, h.params, h.variadic, h.body, h.render.grow hcells⟩

/-- **A function that renders portions** for the state that it is called with. -/
def Renders (o : Outline) (portions : List Portion) (support : Nat) (m : Machine) (n : Nat) :
    Prop :=
  ∃ c k r, Entry o.arguments k m n c ∧ Renderer portions support m k r ∧
    r.params = o.parameters.map String.toList

/-- A function that renders portions still does when variables and functions have grown. -/
theorem Renders.grow {o : Outline} {portions : List Portion} {support n : Nat} {m m' : Machine}
    (h : Renders o portions support m n) (hcells : Grows m.cells m'.cells)
    (hclosures : Grows m.closures m'.closures) : Renders o portions support m' n := by
  obtain ⟨c, k, r, hentry, hrenderer, hparams⟩ := h
  exact ⟨c, k, r, hentry.grow hcells hclosures, hrenderer.grow hcells hclosures, hparams⟩

/-! ## Imports that are found -/

/-- **A path that comes to a value,** as a module or among the globals. -/
def Found (m : Machine) (modules : Nat) (path : String) : Prop :=
  (importValue m modules (Bytes.ofText path)).isNil = false

instance (m : Machine) (modules : Nat) (path : String) : Decidable (Found m modules path) :=
  inferInstanceAs (Decidable (_ = false))

/-- **A program whose imports are found,** for a table of modules. The support table is one of them,
and the locals of the others are usable. -/
structure Outline.Resolves (o : Outline) (m : Machine) (modules support : Nat) : Prop where
  found : ∀ i ∈ o.imports, Found m modules i.2
  locals : ∃ before after, o.imports = before ++ (supportName, supportName) :: after ∧
    (∀ i ∈ before, isUsable i.1 = true) ∧ ∀ i ∈ after, isUsable i.1 = true
  support : importValue m modules (Bytes.ofText supportName) = .table support

namespace Outline.Resolves

variable {o : Outline} {m m' : Machine} {modules support : Nat}

/-- Only the tables of a machine count. -/
theorem congr (h : o.Resolves m modules support) (hm : m'.tables = m.tables) :
    o.Resolves m' modules support := by
  have hvalue (path : Bytes) : importValue m' modules path = importValue m modules path :=
    importValue_congr hm modules path
  refine ⟨fun i hi => ?_, h.locals, by rw [hvalue, h.support]⟩
  rw [Found, hvalue]
  exact h.found i hi

/-- The local of an import is usable or the name of the support table. -/
theorem isUsable_or_eq (h : o.Resolves m modules support) {i : Import} (hi : i ∈ o.imports) :
    isUsable i.1 = true ∨ i.1 = supportName := by
  obtain ⟨before, after, himports, hbefore, hafter⟩ := h.locals
  rw [himports, List.mem_append, List.mem_cons] at hi
  rcases hi with hi | rfl | hi
  · exact .inl (hbefore i hi)
  · exact .inr rfl
  · exact .inl (hafter i hi)

/-- No import has another name that is kept for programs. -/
theorem ne_of_isReserved (h : o.Resolves m modules support) {name : String}
    (hname : isReserved name = true) (hne : name ≠ supportName) :
    ∀ i ∈ o.imports, i.1.toList ≠ name.toList := by
  intro i hi heq
  have heq := String.toList_inj.mp heq
  rcases h.isUsable_or_eq hi with hi | hi
  · rw [heq, isUsable, hname] at hi
    simp at hi
  · exact hne (heq.symm.trans hi)

end Outline.Resolves

section Program

variable {f : Frame} {m : Machine} {support : Nat} {o : Outline}

/-- **The statements behind the imports** give a function that renders the portions. -/
theorem executeBlock_render (fuel base n : Nat) (whole : Block) (portions : List Portion) {s : Stat}
    (hs : IsEntry o.arguments s)
    (hconcat : Binds m f.env "__concat".toList (.builtin (.table .concat)))
    (htostring : Binds m f.env "__tostring".toList (.builtin (.base .tostring)))
    (hsupport : Binds m f.env supportName.toList (.table support))
    (hparameters : ∀ p ∈ o.parameters, Harmless p.toList) :
    ∃ k m', executeBlock (fuel + 6) f base whole
        [renderStat (o.parameters.map String.toList) n portions, s] m =
        .done (.returned [.closure k]) m' ∧
      Renders o portions support m' k ∧ m.Extends m' := by
  obtain ⟨xs, l, e, rfl, hxs⟩ := hs
  -- The function that renders, which sees itself.
  let env := f.bind "__render".toList m.cells.size
  let r : Closure := ⟨o.parameters.map String.toList, false, renderBody (n + 2) portions, env,
    f.level, f.chunk⟩
  let m₁ := (m.pushCell (.closure m.closures.size)).pushClosure r
  have hdeclared : execute (fuel + 5) f
      (renderStat (o.parameters.map String.toList) n portions) m = .done (.next env) m₁ :=
    execute_declareFunction
  have hgrows : m.Extends m₁ := (Machine.Extends.pushCell m _).trans (.pushClosure _ r)
  have hrenderer : Renderer portions support m₁ m.closures.size r :=
    ⟨by simp [m₁, Machine.pushClosure, Machine.pushCell], by simpa [r] using hparameters, rfl,
      ⟨n + 2, rfl⟩, (hconcat.grow hgrows.cells).cons (by simp),
      (htostring.grow hgrows.cells).cons (by simp),
      (hsupport.grow hgrows.cells).cons (by simp [supportName])⟩
  -- The function that the program gives.
  let body : Block := [.yields [.call l (.var "__render".toList) xs]]
  let c : Closure := ⟨["__state".toList], false, body, env, f.level, f.chunk⟩
  let m₂ := m₁.pushClosure c
  have hyields : execute (fuel + 4) (f.withEnv env)
      (.yields [.function ["__state".toList] false body e]) m₁ =
        .done (.returned [.closure m₁.closures.size]) m₂ :=
    execute_yields_value rfl (by simp) (evaluate_function fuel _ _ _ _ _ _)
  have hgrows₂ : m₁.Extends m₂ := .pushClosure m₁ c
  have hentry : Entry o.arguments m.closures.size m₂ m₁.closures.size c :=
    ⟨by simp [m₂, Machine.pushClosure], rfl, rfl, ⟨xs, l, rfl, hxs⟩,
      .head (by simp [m₂, m₁, Machine.pushClosure, Machine.pushCell])⟩
  exact ⟨m₁.closures.size, m₂,
    (executeBlock_next hdeclared).trans (executeBlock_returned hyields),
    ⟨c, _, r, hentry, hrenderer.grow hgrows₂.cells hgrows₂.closures, rfl⟩, hgrows.trans hgrows₂⟩

/-- **The statements of a program** give a function that renders the portions, if each import is
found.

**Proof sketch.** The prelude, the imports and the functions behind them run one behind the other;
what the prelude binds is kept by the imports, whose locals are other names. -/
theorem executeBlock_program (fuel bound base support : Nat) (whole : Block) {modules : Nat}
    (portions : List Portion) {s : Stat} (hs : IsEntry o.arguments s)
    (hbare : Bare m f.env) (hconcat : m.member "table" "concat" = .builtin (.table .concat))
    (htostring : m.global "tostring" = .builtin (.base .tostring))
    (hvarargs : f.varargs = [.table modules])
    (hdepth : f.trace.depth + 1 < maxDepth) (hcrossings : f.trace.crossings < maxCrossings)
    (hresolves : o.Resolves m modules support)
    (hbound : ∀ i ∈ o.imports, (segments (Bytes.ofText i.2)).length ≤ bound)
    (hparameters : ∀ p ∈ o.parameters, Harmless p.toList) :
    ∃ k m', executeBlock (fuel + bound + 33 + o.imports.length) f base whole
        (preambleTree o.imports ++
          [renderStat (o.parameters.map String.toList) (27 + o.imports.length) portions, s]) m =
        .done (.returned [.closure k]) m' ∧
      Renders o portions support m' k ∧ m.Extends m' := by
  obtain ⟨m₁, env₁, n, c, hprelude, hconcat₁, htostring₁, himporter, himport, htables₁, hmore₁⟩ :=
    executeBlock_prelude base 27 whole hbare hvarargs
  rw [hconcat] at hconcat₁
  rw [htostring] at htostring₁
  have hvalue₁ (path : Bytes) : importValue m₁ modules path = importValue m modules path :=
    importValue_congr htables₁ modules path
  obtain ⟨m₂, env₂, himports, himported⟩ := executeBlock_imports bound 27 base whole
    (f := f.withEnv env₁) o.imports himporter himport hdepth hcrossings
    (hresolves.ne_of_isReserved (by decide) (by decide)) hbound
    (fun i hi => by rw [hvalue₁]; exact hresolves.found i hi)
  -- The other locals are usable, so none of them is the name of the support table.
  have hsupport₂ : Binds m₂ env₂ supportName.toList (.table support) := by
    obtain ⟨before, after, hsplit, -, hafter⟩ := hresolves.locals
    rw [← hresolves.support, ← hvalue₁]
    refine himported.bound (i := (supportName, supportName)) hsplit fun j hj heq => ?_
    have husable := hafter j hj
    rw [String.toList_inj.mp heq] at husable
    exact absurd husable (by decide)
  let rest : Block := [renderStat (o.parameters.map String.toList) (27 + o.imports.length) portions,
    s]
  obtain ⟨k, m₃, hrender, hrenders, hmore₃⟩ := executeBlock_render (f := f.withEnv env₂)
    (fuel + bound + 21) base (27 + o.imports.length) whole portions hs
    (himported.others (hresolves.ne_of_isReserved (by decide) (by decide)) hconcat₁)
    (himported.others (hresolves.ne_of_isReserved (by decide) (by decide)) htostring₁) hsupport₂
    hparameters
  refine ⟨k, m₃, ?_, hrenders, (hmore₁.trans himported.more).trans hmore₃⟩
  have hrest := (himports fuel rest).trans hrender
  rw [show fuel + bound + 27 + o.imports.length = fuel + bound + 20 + o.imports.length + 7 by omega]
    at hrest
  rw [show fuel + bound + 33 + o.imports.length =
      fuel + bound + 20 + o.imports.length + 13 by omega,
    preambleTree, List.append_assoc, List.append_assoc]
  exact (hprelude _ _).trans hrest

end Program

/-! ## Loading -/

/-- The support table of a new machine. -/
def supportTable : Table :=
  ({ entries := [(.text "version", .text version)] } : Table).set includeKey (.inclusion 0)

/-- The table of modules when no file is referenced. -/
def moduleTable : Table := { entries := [(.text supportName, .table 5)] }

/-- **The machine in which the first referenced file runs,** or the program if there is none. -/
def Machine.loaded : Machine :=
  { Machine.fresh with
    tables := (Machine.fresh.tables.push supportTable).push moduleTable
    inclusions := #[none] }

/-- A change of the last item of an array. -/
theorem modify_push {α : Type} (xs : Array α) (a : α) (g : α → α) :
    (xs.push a).modify xs.size g = xs.push (g a) := by
  apply Array.ext
  · simp
  · intro i h h'
    rw [Array.getElem_modify, Array.getElem_push, Array.getElem_push]
    rw [Array.size_push] at h'
    split
    · rw [dif_neg (by omega), dif_neg (by omega)]
    · rw [dif_pos (by omega), dif_pos (by omega)]

/-- The support table is the sixth one. -/
theorem newSupport_fresh : newSupport Machine.fresh = .done 5
    { Machine.fresh with
      tables := Machine.fresh.tables.push supportTable
      inclusions := #[none] } := by
  have hmodify := modify_push Machine.fresh.tables
    { entries := [(.text "version", .text version)] } fun t => t.set includeKey (.inclusion 0)
  rw [supportTable, ← hmodify]
  rfl

/-- The tables of the libraries are in the machine in which a program begins. -/
theorem libraries_loaded : Grows Machine.fresh.tables Machine.loaded.tables :=
  (Grows.push _ _).trans (.push _ _)

/-- **The referenced files run from that machine on,** and then the program. -/
theorem start_eq (fs : FileSystem) (request : CompileRequest) :
    start fs request Machine.fresh =
      (do
        let wrong ← loadReferences fs (stepLimit request.program) 6
          (request.references.filter fun r => !r.isHost)
        match (Chunk.template request.program).read with
        | .error e => return .error (wrong ++ [e.diagnostic])
        | .ok b =>
          if wrong.isEmpty then
            let entry ← runProgram (.template request.program) b (stepLimit request.program) 6
            return entry.map (·, 5)
          else return .error wrong :
        Run (Except (List Diagnostic) (Value × Nat))) Machine.loaded := by
  have hnew : Run.newTable moduleTable
      { Machine.fresh with
        tables := Machine.fresh.tables.push supportTable
        inclusions := #[none] } = .done (.table 6) Machine.loaded := rfl
  rw [start]
  refine (Run.bind_done newSupport_fresh).trans ?_
  refine (Run.bind_done (x := Run.get) rfl).trans ?_
  exact Run.bind_done hnew

/-- The program runs at once when every reference is to a library of the host. -/
theorem start_loaded {fs : FileSystem} {request : CompileRequest} {b : Block}
    (hreferences : ∀ r ∈ request.references, r.isHost = true)
    (hread : (Chunk.template request.program).read = .ok b) :
    start fs request Machine.fresh =
      (do
        let entry ← runProgram (Chunk.template request.program) b (stepLimit request.program) 6
        return entry.map (·, 5) : Run (Except (List Diagnostic) (Value × Nat))) Machine.loaded := by
  have hnone : (request.references.filter fun r => !r.isHost) = [] := by
    rw [List.filter_eq_nil_iff]
    intro r hr
    simp [hreferences r hr]
  rw [start_eq, hnone]
  simp only [loadReferences, hread]
  rfl

/-! ## Compiling -/

/-- **A session that renders portions.** -/
structure Session.Ready (s : Session) (o : Outline) (portions : List Portion) : Prop where
  entry : ∃ n, s.entry = .closure n ∧ Renders o portions s.support s.machine n
  support : s.support < s.machine.tables.size
  steps : portions.length + o.arguments.length + 100 ≤ s.steps

/-- A text of lines is no shorter than their number and any one of them together. -/
theorem length_lines {ls : List String} {l : String} (h : l ∈ ls) :
    ls.length + l.length ≤ (lines ls).length := by
  have hcons (l : String) (ls : List String) :
      (lines (l :: ls)).length = l.length + 1 + (lines ls).length := by
    have htext : lines (l :: ls) = l ++ "\n" ++ lines ls := by
      simp [lines, String.join_cons]
    rw [htext, String.length_append, String.length_append]
    rfl
  have hcount (ls : List String) : ls.length ≤ (lines ls).length := by
    induction ls with
    | nil => exact Nat.zero_le _
    | cons l ls ih =>
      rw [hcons, List.length_cons]
      omega
  induction ls with
  | nil => cases h
  | cons l' ls ih =>
    rw [hcons, List.length_cons]
    rcases List.mem_cons.mp h with rfl | h
    · have hls := hcount ls
      omega
    · have hls := ih h
      omega

/-- Texts with commas between them are no shorter than their number. -/
theorem length_intercalate (as : List Passed) :
    as.length ≤ (", ".intercalate (as.map Passed.text)).length := by
  have hpos (a : Passed) : 1 ≤ a.text.toList.length := by
    cases a <;> simp [Passed.text]
  rw [← String.length_toList, String.toList_intercalate, List.map_map]
  induction as with
  | nil => exact Nat.zero_le _
  | cons a as ih =>
    have ha := hpos a
    cases as with
    | nil => simpa using ha
    | cons a' as =>
      rw [List.map_cons, List.map_cons, List.intercalate_cons_cons]
      simp only [List.map_cons, List.length_append, List.length_cons, Function.comp_apply] at ih ⊢
      omega

/-- A program has no fewer characters than portions and arguments. -/
theorem Outline.length_text (o : Outline) (first : String) (portions : List Portion) :
    portions.length + o.arguments.length ≤ (o.text first (portions.map Portion.line)).length := by
  have hpass : "  return __render(" ++ ", ".intercalate (o.arguments.map Passed.text) ++ ")" ∈
      [first] ++ o.opening ++ portions.map Portion.line ++
        endLines (o.arguments.map Passed.text) := by
    simp [endLines]
  have hlines := length_lines hpass
  have harguments := length_intercalate o.arguments
  simp only [List.length_append, List.length_map, String.length_append] at hlines
  rw [text]
  omega

/-- **A program is longer than its imports have segments:** the segments of any one path and the
number of the imports together. -/
theorem Outline.exists_segments_le (o : Outline) (first : String) (body : List String) :
    ∃ bound, (∀ i ∈ o.imports, (segments (Bytes.ofText i.2)).length ≤ bound) ∧
      bound + o.imports.length ≤ (o.text first body).length := by
  let ls : List String := [first] ++ o.opening ++ body ++ endLines (o.arguments.map Passed.text)
  have hcount : o.imports.length + 1 ≤ ls.length := by
    simp only [ls, opening, List.length_append, List.length_map, List.length_singleton]
    omega
  have hline {l : String} (hl : l ∈ ls) : ls.length + l.length ≤ (o.text first body).length :=
    length_lines hl
  have hfirst := hline (l := first) (by simp [ls])
  refine ⟨(o.text first body).length - o.imports.length, fun i hi => ?_, by omega⟩
  have hmem : importStatement i.1 i.2 ∈ ls := by
    have himport : importStatement i.1 i.2 ∈ o.imports.map fun i => importStatement i.1 i.2 :=
      List.mem_map_of_mem hi
    simp [ls, opening, himport]
  have hstatement : (quote i.2).length ≤ (importStatement i.1 i.2).length := by
    simp only [importStatement, String.length_append]
    omega
  have hsegments := length_segments_ofText i.2
  have hquote : i.2.length ≤ (quote i.2).length := by
    have hle := length_le_flatMap_quoteChar i.2.toList
    rw [← String.length_toList, ← String.length_toList, quote, String.toList_ofList, quoteText,
      List.length_append, List.length_cons]
    omega
  have hlong := hline hmem
  omega

/-- The imports that a program has by default, each with its local. -/
def standardImports : List Import := [("codet", "codet"), ("string", "string"), ("table", "table")]

/-- What the default imports stand for. -/
def standardValue (i : Import) : Value :=
  if i.2 = "codet" then .table 5 else if i.2 = "string" then .table 1 else .table 2

/-- A library is found among the globals. -/
theorem importValue_library {m : Machine} {modules n : Nat} {name : String}
    (hlibraries : Grows Machine.fresh.tables m.tables)
    (hmodules : m.tables[modules]? = some moduleTable)
    (hmodule : Table.lookup (.text name) moduleTable.entries = .nil)
    (hsegments : segments (Bytes.ofText name) = [Bytes.ofText name])
    (hname : Table.lookup (.text name) globalEntries = .table n) :
    importValue m modules (Bytes.ofText name) = .table n := by
  have hnone : (m.tables.getD modules {}).get (.string (Bytes.ofText name)) = .nil := by
    rw [Array.getD_eq_getD_getElem?, hmodules]
    exact hmodule
  have hroot : m.global "_G" = .table globalTable := (global_library hlibraries "_G").trans (by cbv)
  rw [importValue, hnone, hsegments, hroot]
  exact (global_library hlibraries name).trans hname

/-- **The default imports** are the support table and two libraries. -/
theorem importValue_standard {m : Machine} {modules : Nat}
    (hlibraries : Grows Machine.fresh.tables m.tables)
    (hmodules : m.tables[modules]? = some moduleTable) :
    ∀ i ∈ standardImports, importValue m modules (Bytes.ofText i.2) = standardValue i := by
  intro i hi
  simp only [standardImports, List.mem_cons, List.not_mem_nil, or_false] at hi
  obtain rfl | rfl | rfl := hi
  · have hmodule : (m.tables.getD modules {}).get (.string (Bytes.ofText "codet")) = .table 5 := by
      rw [Array.getD_eq_getD_getElem?, hmodules]
      cbv
    rw [importValue, hmodule]
    rfl
  · exact importValue_library hlibraries hmodules (by cbv) (by cbv) (by cbv)
  · exact importValue_library hlibraries hmodules (by cbv) (by cbv) (by cbv)

/-- A usable name is harmless. -/
theorem harmless_of_isUsable {parameter : String} (h : isUsable parameter = true) :
    Harmless parameter.toList := by
  have hreserved : isReserved parameter = false := by
    simp only [isUsable, Bool.and_eq_true, Bool.not_eq_true'] at h
    exact h.2
  have hne (name : String) (hname : isReserved name = true) : parameter.toList ≠ name.toList := by
    intro heq
    rw [String.toList_inj.mp heq, hname] at hreserved
    cases hreserved
  simp only [Harmless, List.mem_cons, List.not_mem_nil, or_false, not_or]
  exact ⟨hne _ (by decide), hne _ (by decide), hne _ (by decide), hne _ (by decide),
    hne _ (by decide)⟩

/-- A usable name is an identifier. -/
theorem isIdentifier_of_isUsable {name : String} (h : isUsable name = true) :
    isIdentifier name = true := by
  simp only [isUsable, Bool.and_eq_true] at h
  exact h.1

/-- **A program runs** and gives a function that renders the portions. -/
theorem run_program (steps bound : Nat) {o : Outline} (portions : List Portion) {s : Stat}
    (chunk : Chunk) (hs : IsEntry o.arguments s) (hresolves : o.Resolves Machine.loaded 6 5)
    (hbound : ∀ i ∈ o.imports, (segments (Bytes.ofText i.2)).length ≤ bound)
    (hparameters : ∀ p ∈ o.parameters, isUsable p = true)
    (hsteps : bound + o.imports.length + 34 ≤ steps) :
    ∃ n m, chunk.run steps (preambleTree o.imports ++
          [renderStat (o.parameters.map String.toList) (27 + o.imports.length) portions, s])
          [.table 6] Machine.loaded = .done [.closure n] m ∧
      Renders o portions 5 m n ∧ Machine.loaded.Extends m := by
  let body := preambleTree o.imports ++
    [renderStat (o.parameters.map String.toList) (27 + o.imports.length) portions, s]
  let c : Closure := ⟨[], true, body, [⟨environmentName, 0, 0⟩], 0, chunk.name⟩
  let m₁ := (Machine.loaded.pushCell (.table globalTable)).pushClosure c
  have hmore : Machine.loaded.Extends m₁ := (Machine.Extends.pushCell _ _).trans (.pushClosure _ c)
  let f := c.chunkFrame .start [.table 6]
  have hfree : ∀ name ∈ neededGlobals,
      Env.find? [⟨environmentName, 0, 0⟩] name.toList = none := by decide
  have hlibraries : Grows Machine.fresh.tables m₁.tables := libraries_loaded
  have hbare : Bare m₁ f.env := ⟨.of_libraries hlibraries, ⟨_, rfl, rfl⟩, hfree⟩
  have hconcat : m₁.member "table" "concat" = .builtin (.table .concat) :=
    (member_library hlibraries (n := 2) (by cbv) rfl "concat").trans (by cbv)
  have htostring : m₁.global "tostring" = .builtin (.base .tostring) :=
    (global_library hlibraries "tostring").trans (by cbv)
  have hdepth : f.trace.depth + 1 < maxDepth := show 0 + 1 < 190000 by decide
  have hcrossings : f.trace.crossings < maxCrossings := show 0 < 195 by decide
  obtain ⟨fuel, hfuel⟩ := Nat.exists_eq_add_of_le' hsteps
  obtain ⟨k, m', hblock, hrenders, hmore'⟩ := executeBlock_program (m := m₁) (f := f)
    fuel bound c.env.length 5 c.body portions hs hbare hconcat htostring rfl hdepth hcrossings
    (hresolves.congr rfl) hbound (fun p hp => harmless_of_isUsable (hparameters p hp))
  refine ⟨k, m', ?_, hrenders, hmore.trans hmore'⟩
  have hcall : call steps .start (.closure 0) [.table 6] m₁ = .done [.closure k] m' := by
    rw [hfuel, show fuel + (bound + o.imports.length + 34) =
        fuel + bound + 33 + o.imports.length + 1 by omega,
      call_chunk (c := c) rfl rfl rfl (by decide) (by decide)]
    exact congrArg Step.results hblock
  rw [Chunk.run]
  exact hcall

/-- **The text of a program is compiled** to a session that renders its portions, if its imports are
found and no file is referenced.

**Proof sketch.** No file is run before the program. Its text is read as its statements, which
keep the rules on names; they run to their end in far fewer steps than there are. -/
theorem compile_program (fs : FileSystem) (request : CompileRequest) {first : String} {o : Outline}
    {portions : List Portion} (hreferences : ∀ r ∈ request.references, r.isHost = true)
    (hprogram : request.program = o.text first (portions.map Portion.line))
    (hfirst : LineReads first []) (hresolves : o.Resolves Machine.loaded 6 5)
    (hparameters : ∀ p ∈ o.parameters, isUsable p = true)
    (hnames : ∀ p ∈ portions, ∀ name ∈ p.names, isUsable name = true) :
    ∃ s, compile fs request = .ok s ∧ s.Ready o portions := by
  have hidentifier : ∀ i ∈ o.imports, isIdentifier i.1 = true := by
    intro i hi
    rcases hresolves.isUsable_or_eq hi with hi | hi
    · exact isIdentifier_of_isUsable hi
    · rw [hi]
      decide
  have hne : o.imports ≠ [] := by
    obtain ⟨before, after, himports, -⟩ := hresolves.locals
    simp [himports]
  obtain ⟨t, ht, hread⟩ := Outline.read_text hfirst
    (fun p hp => isIdentifier_of_isUsable (hparameters p hp)) hidentifier hne
    (fun p hp name hname => isIdentifier_of_isUsable (hnames p hp name hname))
  rw [← hprogram] at hread
  have hsteps : portions.length + o.arguments.length + 100 ≤ stepLimit request.program := by
    have hlength := o.length_text first portions
    have hlimit : 100 ≤ 1 <<< 40 := by decide
    rw [stepLimit, hprogram]
    omega
  obtain ⟨bound, hbound, hlength⟩ := o.exists_segments_le first (portions.map Portion.line)
  obtain ⟨n, m, hrun, hrenders, hmore⟩ := run_program (stepLimit request.program) bound portions
    (Chunk.template request.program) ht hresolves hbound hparameters (by
      have hlimit : 34 ≤ 1 <<< 40 := by decide
      rw [stepLimit, hprogram]
      omega)
  have hprogram : runProgram (Chunk.template request.program)
      (preambleTree o.imports ++
        [renderStat (o.parameters.map String.toList) (27 + o.imports.length) portions, t])
      (stepLimit request.program) 6 Machine.loaded = .done (.ok (.closure n)) m := by
    rw [runProgram, Run.bind_done (Run.protect_done hrun)]
    rfl
  have hstart : start fs request Machine.fresh = .done (.ok (.closure n, 5)) m := by
    rw [start_loaded hreferences hread, Run.bind_done hprogram]
    rfl
  refine ⟨⟨m, .closure n, 5, stepLimit request.program⟩, ?_, ⟨n, rfl, hrenders⟩, ?_, hsteps⟩
  · rw [compile, hstart]
  · have hlast : m.tables[5]? = some supportTable := hmore.tables 5 _ rfl
    exact (Array.getElem?_eq_some_iff.mp hlast).1

end Stencil.Lua
