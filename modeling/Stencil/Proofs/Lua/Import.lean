import Stencil.Proofs.Lua.Execution
import Stencil.Proofs.Lua.ProgramTree
import Stencil.Proofs.Lua.Segments
set_option autoImplicit false

/-!
# Finding an import

The function that the prelude defines for imports gives the module of a path if there is one, and
otherwise the value at the end of the walk along the segments of the path among the globals. If
there is none either, it raises an error.

## Main definitions

* `Stencil.Lua.Prepared` — what the prelude has bound.
* `Stencil.Lua.walk` — the value reached along keys.
* `Stencil.Lua.importValue` — what an import comes to.
* `Stencil.Lua.Walking` — the loop that walks, between two rounds.
* `Stencil.Lua.Imported` — what imports leave behind.

## Main results

* `Stencil.Lua.runGeneric_segments` — the loop comes to the value at the end of the walk.
* `Stencil.Lua.call_import`, `call_import_missing` — an import that is found, and one that is not.
* `Stencil.Lua.executeBlock_imports` — the statements of imports, one after another.
* `Stencil.Lua.executeBlock_imports_missing` — the first import that is not found.
-/

namespace Stencil.Lua

/-! ## What the prelude binds -/

/-- **What the prelude has bound,** for a table of modules. -/
structure Prepared (m : Machine) (env : Env) (modules : Nat) : Prop where
  globals : Binds m env environmentName (.table globalTable)
  modules : Binds m env "__modules".toList (.table modules)
  type : Binds m env "__type".toList (.builtin (.base .type))
  gmatch : Binds m env "__gmatch".toList (.builtin (.string .gmatch))

namespace Prepared

variable {m m' : Machine} {env : Env} {modules : Nat}

/-- The prelude stays bound in a machine whose variables have grown. -/
theorem grow (h : Prepared m env modules) (hm : Grows m.cells m'.cells) :
    Prepared m' env modules :=
  ⟨h.globals.grow hm, h.modules.grow hm, h.type.grow hm, h.gmatch.grow hm⟩

/-- The names that the prelude has bound. -/
def names : List Ident :=
  [environmentName, "__modules".toList, "__type".toList, "__gmatch".toList]

/-- The prelude stays bound if another name is declared. -/
theorem cons (h : Prepared m env modules) {v : Variable} (hv : v.name ∉ names) :
    Prepared m (v :: env) modules := by
  have hne {name : Ident} (hname : name ∈ names) : v.name ≠ name := by
    rintro rfl
    exact hv hname
  exact ⟨h.globals.cons (hne (by simp [names])), h.modules.cons (hne (by simp [names])),
    h.type.cons (hne (by simp [names])), h.gmatch.cons (hne (by simp [names]))⟩

end Prepared

/-! ## Walks -/

/-- **The value reached from a value along keys.** A value that is no table ends the walk. -/
def walk (m : Machine) : Value → List Bytes → Value
  | v, [] => v
  | .table n, key :: keys => walk m ((m.tables.getD n {}).get (.string key)) keys
  | _, _ :: _ => .nil

/-- The value of a global. -/
def Machine.global (m : Machine) (name : String) : Value :=
  (m.tables.getD globalTable {}).get (.text name)

/-- **What an import comes to:** the module of its path, or else the value at the end of a walk
among the globals. -/
def importValue (m : Machine) (modules : Nat) (path : Bytes) : Value :=
  let v := (m.tables.getD modules {}).get (.string path)
  if v.isNil then walk m (m.global "_G") (segments path) else v

/-- A walk does not depend on the variables of a machine. -/
theorem walk_congr {m m' : Machine} (h : m'.tables = m.tables) (v : Value) (keys : List Bytes) :
    walk m' v keys = walk m v keys := by
  induction keys generalizing v with
  | nil => rfl
  | cons key keys ih => cases v <;> simp [walk, h, ih]

/-- What an import comes to depends on the tables alone. -/
theorem importValue_congr {m m' : Machine} (h : m'.tables = m.tables) (modules : Nat)
    (path : Bytes) : importValue m' modules path = importValue m modules path := by
  simp only [importValue, Machine.global, walk_congr h, h]

/-- The type of a value. -/
theorem call_type {fuel : Nat} {trace : Trace} {m : Machine} (v : Value) :
    call (fuel + 1) trace (.builtin (.base .type)) [v] m = .done [.text v.typeName] m := by
  rw [call]
  rfl

/-! ## One segment -/

section Segment

variable {fuel base : Nat} {g : Frame} {m : Machine} {x : Variable} {v : Value}

/-- The test of the loop: whether a value is no table. -/
theorem evaluate_noTable (hx : Env.find? g.env "value".toList = some x)
    (hv : m.cells[x.cell]? = some v)
    (htype : Binds m g.env "__type".toList (.builtin (.base .type))) :
    evaluate (fuel + 7) g (.binary 15 .ne (.call 15 (.var "__type".toList) [.var "value".toList])
        (.string (Bytes.ofText "table"))) m =
      .done (.bool (!(Value.text v.typeName).rawEq (.text "table"))) m := by
  have hargs : evaluateList (fuel + 4) g [.var "value".toList] m = .done [v] m :=
    evaluateList_value rfl (by simp) (evaluate_var ⟨x, hx, hv⟩)
  have hcall : evaluateAll (fuel + 5) g
      (.call 15 (.var "__type".toList) [.var "value".toList]) m = .done [.text v.typeName] m := by
    rw [evaluateAll_call (evaluate_var htype) hargs, callAt_function rfl]
    exact call_type v
  exact evaluate_binary (by simp) (by simp) (evaluate_call hcall) evaluate_string rfl

/-- **One segment of a walk** goes on from a table. -/
theorem executeBlock_segment_table {n : Nat} {key : Bytes}
    (hx : Env.find? g.env "value".toList = some x) (hv : m.cells[x.cell]? = some (.table n))
    (hkey : Binds m g.env "segment".toList (.string key))
    (htype : Binds m g.env "__type".toList (.builtin (.base .type))) :
    executeBlock (fuel + 12) g base segmentBody segmentBody m =
      .done (.next g.env) (m.setCell x.cell ((m.tables.getD n {}).get (.string key))) := by
  have htest : execute (fuel + 11) g (.choose (.binary 15 .ne
      (.call 15 (.var "__type".toList) [.var "value".toList]) (.string (Bytes.ofText "table")))
        [.assign 16 [.var "value".toList] [.nil], .leave] []) m = .done (.next g.env) m :=
    execute_choose_no (evaluate_noTable hx hv htype) (by cbv)
  have hvalue : evaluateList (fuel + 9) g
      [.index 19 (.var "value".toList) (.var "segment".toList)] m =
        .done [(m.tables.getD n {}).get (.string key)] m :=
    evaluateList_value rfl (by simp)
      (evaluate_index (evaluate_var ⟨x, hx, hv⟩) (evaluate_var hkey))
  rw [segmentBody, executeBlock_next htest, Frame.withEnv_env,
    executeBlock_next (execute_assign_var hx hvalue)]
  exact executeBlock_nil

/-- **One segment of a walk** leaves the loop at any other value. -/
theorem executeBlock_segment_other (hx : Env.find? g.env "value".toList = some x)
    (hv : m.cells[x.cell]? = some v) (hother : ∀ n, v ≠ .table n)
    (htype : Binds m g.env "__type".toList (.builtin (.base .type))) :
    executeBlock (fuel + 12) g base segmentBody segmentBody m =
      .done .left (m.setCell x.cell .nil) := by
  have hne : (Value.text v.typeName).rawEq (.text "table") = false := by
    cases v with
    | table n => exact absurd rfl (hother n)
    | bool b => cases b <;> cbv
    | _ => cbv
  have hnil : evaluateList (fuel + 8) g [.nil] m = .done [.nil] m := by
    refine evaluateList_value rfl (by simp) ?_
    rw [evaluate]
    rfl
  have hbranch : executeBlock (fuel + 10) g g.env.length
      [.assign 16 [.var "value".toList] [.nil], .leave]
      [.assign 16 [.var "value".toList] [.nil], .leave] m =
        .done .left (m.setCell x.cell .nil) := by
    rw [executeBlock_next (execute_assign_var hx hnil)]
    refine executeBlock_left ?_
    rw [execute]
    rfl
  have htest : execute (fuel + 11) g (.choose (.binary 15 .ne
      (.call 15 (.var "__type".toList) [.var "value".toList]) (.string (Bytes.ofText "table")))
        [.assign 16 [.var "value".toList] [.nil], .leave] []) m =
          .done .left (m.setCell x.cell .nil) := by
    rw [execute_choose_yes (evaluate_noTable hx hv htype) (by rw [hne]; rfl) hbranch]
    rfl
  exact executeBlock_left htest

end Segment

/-! ## The loop -/

/-- A machine in which a search has gone on. -/
def Machine.setSearch (m : Machine) (n : Nat) (s : Search) : Machine :=
  { m with searches := m.searches.setIfInBounds n s }

/-- A search that finds something. -/
theorem call_matcher_found {fuel n : Nat} {trace : Trace} {m : Machine} {s s' : Search}
    {found : Pattern.Match} {args vs : Arguments} (hs : m.searches[n]? = some s)
    (hnext : s.next = .ok (some (found, s'))) (hvs : matchValues s'.subject found = .ok vs) :
    call (fuel + 1) trace (.matcher n) args m = .done vs (m.setSearch n s') := by
  rw [call, runSearch, Run.bind_done (x := Run.get) (m := m) rfl]
  simp only [hs, hnext]
  show Run.check trace "gmatch" (matchValues s'.subject found) _ = _
  rw [hvs]
  rfl

/-- A search that finds nothing. -/
theorem call_matcher_none {fuel n : Nat} {trace : Trace} {m : Machine} {s : Search}
    {args : Arguments} (hs : m.searches[n]? = some s) (hnext : s.next = .ok none) :
    call (fuel + 1) trace (.matcher n) args m = .done [.nil] m := by
  rw [call, runSearch, Run.bind_done (x := Run.get) (m := m) rfl]
  simp only [hs, hnext]
  rfl

/-- **A machine in which one variable may have changed,** and there may be more variables and
searches. -/
structure Machine.Alters (n : Nat) (m m' : Machine) : Prop where
  tables : m'.tables = m.tables
  closures : m'.closures = m.closures
  inclusions : m'.inclusions = m.inclusions
  strings : m'.strings = m.strings
  cells : ∀ (i : Nat) (v : Value), i ≠ n → m.cells[i]? = some v → m'.cells[i]? = some v

namespace Machine.Alters

variable {n : Nat} {m₁ m₂ m₃ : Machine}

/-- A machine in which nothing has changed. -/
theorem refl (n : Nat) (m : Machine) : m.Alters n m := ⟨rfl, rfl, rfl, rfl, fun _ _ _ h => h⟩

/-- Two changes of one variable. -/
theorem trans (h : m₁.Alters n m₂) (h' : m₂.Alters n m₃) : m₁.Alters n m₃ :=
  ⟨h'.tables.trans h.tables, h'.closures.trans h.closures, h'.inclusions.trans h.inclusions,
    h'.strings.trans h.strings, fun i v hi hv => h'.cells i v hi (h.cells i v hi hv)⟩

/-- Another value for the variable. -/
theorem setCell (n : Nat) (m : Machine) (v : Value) : m.Alters n (m.setCell n v) := by
  refine ⟨rfl, rfl, rfl, rfl, fun i w hi hw => ?_⟩
  rw [Machine.setCell, Array.getElem?_setIfInBounds_ne (Ne.symm hi)]
  exact hw

/-- One more variable. -/
theorem pushCell (n : Nat) (m : Machine) (v : Value) : m.Alters n (m.pushCell v) :=
  ⟨rfl, rfl, rfl, rfl, fun i w _ hw => Grows.push _ v i w hw⟩

/-- A search that has gone on. -/
theorem setSearch (n : Nat) (m : Machine) (k : Nat) (s : Search) : m.Alters n (m.setSearch k s) :=
  ⟨rfl, rfl, rfl, rfl, fun _ _ _ h => h⟩

/-- A machine altered in a variable that was not there before. -/
theorem extends_of_le (h : m₁.Alters n m₂) (hn : m₁.cells.size ≤ n) : m₁.Extends m₂ where
  tables := by
    rw [h.tables]
    exact .refl _
  cells := by
    intro i v hv
    obtain ⟨hi, -⟩ := Array.getElem?_eq_some_iff.mp hv
    exact h.cells i v (by omega) hv
  closures := by
    rw [h.closures]
    exact .refl _
  inclusions := by
    rw [h.inclusions]
    exact .refl _
  strings := h.strings

end Machine.Alters

/-- **A loop in the middle of a walk:** a search finds the keys that are left, and a variable has the
value that the walk has come to; another one has the function that gives the type of a value. -/
structure Walking (m : Machine) (n : Nat) (x y : Variable) (keys : List Bytes) (v : Value) :
    Prop where
  search : ∃ s : Search, m.searches[n]? = some s ∧ s.Finds keys
  value : m.cells[x.cell]? = some v
  type : m.cells[y.cell]? = some (.builtin (.base .type))

section Walking

variable {n : Nat} {f : Frame} {m : Machine} {x y : Variable} {key : Bytes} {keys : List Bytes}
  {v : Value}

/-- **What the body of the loop sees** in a round: the machine behind the step of the search, with
the key in a variable of its own. -/
theorem Walking.exists_round (hx : Env.find? f.env "value".toList = some x)
    (hy : Env.find? f.env "__type".toList = some y) (h : Walking m n x y (key :: keys) v) :
    ∃ m₁, (∀ fuel control, callNext (fuel + 2) f 14 (.matcher n) .nil control m =
        .done [.string key] m₁) ∧ m.Alters x.cell (m₁.pushCell (.string key)) ∧
      Walking (m₁.pushCell (.string key)) n x y keys v ∧
      Env.find? (f.inside "segment".toList m₁.cells.size).env "value".toList = some x ∧
      Binds (m₁.pushCell (.string key)) (f.inside "segment".toList m₁.cells.size).env
        "segment".toList (.string key) ∧
      Binds (m₁.pushCell (.string key)) (f.inside "segment".toList m₁.cells.size).env
        "__type".toList (.builtin (.base .type)) := by
  obtain ⟨s, hs, found, s', hnext, hvs, hfinds⟩ := h.search
  have hn : n < m.searches.size := (Array.getElem?_eq_some_iff.mp hs).1
  have htype := Grows.push m.cells (.string key) _ _ h.type
  refine ⟨m.setSearch n s', fun fuel control => ?_,
    (Machine.Alters.setSearch _ m n s').trans (.pushCell _ _ _),
    ⟨⟨s', by simp [Machine.setSearch, Machine.pushCell, hn], hfinds⟩,
      Grows.push _ _ _ _ h.value, htype⟩, hx, .declared rfl, .cons ⟨y, hy, htype⟩ (by simp)⟩
  rw [callNext_function rfl]
  exact call_matcher_found hs hnext hvs

/-- A walk goes on from the value that a variable is given. -/
theorem Walking.setCell (h : Walking m n x y keys v) (hne : y.cell ≠ x.cell) (w : Value) :
    Walking (m.setCell x.cell w) n x y keys w where
  search := h.search
  value := by
    have hlt : x.cell < m.cells.size := (Array.getElem?_eq_some_iff.mp h.value).1
    simp [Machine.setCell, hlt]
  type := (Machine.Alters.setCell _ m w).cells _ _ hne h.type

/-- **A round of the loop** at a table goes on to its entry. -/
theorem runGeneric_segment_table (hx : Env.find? f.env "value".toList = some x)
    (hy : Env.find? f.env "__type".toList = some y) (hne : y.cell ≠ x.cell) {t : Nat}
    (h : Walking m n x y (key :: keys) (.table t)) :
    ∃ m', (∀ fuel control, runGeneric (fuel + 13) f 14 ["segment".toList] segmentBody
        (.matcher n) .nil control m = runGeneric (fuel + 12) f 14 ["segment".toList] segmentBody
          (.matcher n) .nil (.string key) m') ∧ m.Alters x.cell m' ∧
      Walking m' n x y keys ((m.tables.getD t {}).get (.string key)) := by
  obtain ⟨m₁, hcall, halters, hwalking, hvalue, hkey, htype⟩ := h.exists_round hx hy
  refine ⟨_, fun fuel control => runGeneric_next (hcall _ control) rfl
    (executeBlock_segment_table hvalue hwalking.value hkey htype),
    halters.trans (.setCell _ _ _), ?_⟩
  rw [halters.tables]
  exact hwalking.setCell hne _

/-- **A round of the loop** at any other value is the last one. -/
theorem runGeneric_segment_other (hx : Env.find? f.env "value".toList = some x)
    (hy : Env.find? f.env "__type".toList = some y) (hne : y.cell ≠ x.cell)
    (hother : ∀ t, v ≠ .table t) (h : Walking m n x y (key :: keys) v) :
    ∃ m', (∀ fuel control, runGeneric (fuel + 13) f 14 ["segment".toList] segmentBody
        (.matcher n) .nil control m = .done (.next f.env) m') ∧ m.Alters x.cell m' ∧
      m'.cells[x.cell]? = some .nil := by
  obtain ⟨m₁, hcall, halters, hwalking, hvalue, -, htype⟩ := h.exists_round hx hy
  exact ⟨_, fun fuel control => runGeneric_left (hcall _ control) rfl
    (executeBlock_segment_other hvalue hwalking.value hother htype),
    halters.trans (.setCell _ _ _), (hwalking.setCell hne _).value⟩

/-- **The loop walks along the segments** that a search finds.

**Proof sketch.** By induction on the segments. A table sends the walk on to its entry; any other
value ends it with `nil`, and the loop with it. -/
theorem runGeneric_segments (hx : Env.find? f.env "value".toList = some x)
    (hy : Env.find? f.env "__type".toList = some y) (hne : y.cell ≠ x.cell) (control : Value)
    (h : Walking m n x y keys v) :
    ∃ m', (∀ fuel, runGeneric (fuel + keys.length + 13) f 14 ["segment".toList] segmentBody
        (.matcher n) .nil control m = .done (.next f.env) m') ∧
      m.Alters x.cell m' ∧ m'.cells[x.cell]? = some (walk m v keys) := by
  induction keys generalizing control m v with
  | nil =>
    obtain ⟨s, hs, hfinds⟩ := h.search
    refine ⟨m, fun fuel => runGeneric_end ?_, .refl _ m, h.value⟩
    rw [List.length_nil, callNext_function rfl]
    exact call_matcher_none hs hfinds
  | cons key keys ih =>
    have hsteps (fuel : Nat) :
        fuel + (key :: keys).length + 13 = fuel + keys.length + 1 + 13 := by
      rw [List.length_cons]
      omega
    by_cases htable : ∃ t, v = .table t
    · obtain ⟨t, rfl⟩ := htable
      obtain ⟨m₁, hround, halters, hwalking⟩ := runGeneric_segment_table hx hy hne h
      obtain ⟨m', hloop, halters', hv'⟩ := ih (.string key) hwalking
      refine ⟨m', fun fuel => ?_, halters.trans halters', ?_⟩
      · rw [hsteps, hround]
        exact hloop fuel
      · rw [hv', walk_congr halters.tables]
        rfl
    · have hother : ∀ t, v ≠ .table t := fun t ht => htable ⟨t, ht⟩
      obtain ⟨m', hround, halters, hv'⟩ := runGeneric_segment_other hx hy hne hother h
      have hwalk : walk m v (key :: keys) = .nil := by
        cases v with
        | table t => exact absurd rfl (hother t)
        | _ => rfl
      refine ⟨m', fun fuel => ?_, halters, by rw [hv', hwalk]⟩
      rw [hsteps]
      exact hround _ control

end Walking

/-! ## The function -/

/-- **The function that finds imports.** -/
structure Importer (m : Machine) (n modules : Nat) (c : Closure) : Prop where
  closure : m.closures[n]? = some c
  params : c.params = ["path".toList]
  variadic : c.variadic = false
  body : c.body = importBody
  prepared : Prepared m c.env modules
  globals : Env.find? c.env "_G".toList = none
  error : Env.find? c.env "error".toList = none

/-- A value that is not `nil` is not equal to it. -/
theorem rawEq_nil {v : Value} (h : v.isNil = false) : v.rawEq .nil = false := by
  cases v with
  | nil => cases h
  | _ => rfl

section Importer

variable {fuel n modules : Nat} {trace : Trace} {m : Machine} {c : Closure} {path : Bytes}
  {v : Value}

/-- The module of a path, as the first statement finds it. -/
theorem execute_module {f : Frame}
    (hpath : Binds m f.env "path".toList (.string path))
    (hmodules : Binds m f.env "__modules".toList (.table modules)) :
    execute (fuel + 5) f (.declare [("module".toList, .regular)]
        [.index 9 (.var "__modules".toList) (.var "path".toList)]) m =
      .done (.next (f.bind "module".toList m.cells.size))
        (m.pushCell ((m.tables.getD modules {}).get (.string path))) := by
  have hvalue : evaluateList (fuel + 4) f
      [.index 9 (.var "__modules".toList) (.var "path".toList)] m =
        .done [(m.tables.getD modules {}).get (.string path)] m :=
    evaluateList_value rfl (by simp) (evaluate_index (evaluate_var hmodules) (evaluate_var hpath))
  exact execute_declare hvalue

/-- A comparison of a variable with `nil`. -/
theorem evaluate_isNil {f : Frame} {name : Ident} {line : Nat} (hname : Binds m f.env name v)
    (op : BinaryOp) (hand : op ≠ .and) (hor : op ≠ .or) {b : Bool}
    (hb : op.apply v .nil = .ok (.bool b)) :
    evaluate (fuel + 2) f (.binary line op (.var name) .nil) m = .done (.bool b) m := by
  refine evaluate_binary hand hor (evaluate_var hname) ?_ hb
  rw [evaluate]
  rfl

/-- **An import that is a module** is what the table of modules has. -/
theorem call_import_module (hc : Importer m n modules c) (hdepth : trace.depth < maxDepth)
    (hcrossings : trace.crossings < maxCrossings)
    (hv : (m.tables.getD modules {}).get (.string path) = v) (hne : v.isNil = false) :
    call (fuel + 10) trace (.closure n) [.string path] m =
      .done [v] ((m.pushCell (.string path)).pushCell v) := by
  let f := c.frame trace "path".toList m.cells.size
  let m₁ := m.pushCell (.string path)
  let g := f.withEnv (f.bind "module".toList m₁.cells.size)
  have hpath : Binds m₁ f.env "path".toList (.string path) := .declared rfl
  have hmodules : Binds m₁ f.env "__modules".toList (.table modules) :=
    hc.prepared.modules.declare (by simp)
  have hmodule : Binds (m₁.pushCell v) g.env "module".toList v := .declared rfl
  have hfirst : execute (fuel + 8) f (.declare [("module".toList, .regular)]
      [.index 9 (.var "__modules".toList) (.var "path".toList)]) m₁ =
        .done (.next g.env) (m₁.pushCell v) := by
    rw [execute_module hpath hmodules, ← hv]
    rfl
  have htest : evaluate (fuel + 6) g (.binary 10 .ne (.var "module".toList) .nil)
      (m₁.pushCell v) = .done (.bool true) (m₁.pushCell v) :=
    evaluate_isNil hmodule .ne (by simp) (by simp) (by simp [BinaryOp.apply, rawEq_nil hne])
  have hbranch : executeBlock (fuel + 6) g g.env.length [.yields [.var "module".toList]]
      [.yields [.var "module".toList]] (m₁.pushCell v) =
        .done (.returned [v]) (m₁.pushCell v) :=
    executeBlock_returned (execute_yields_value rfl (by simp) (evaluate_var hmodule))
  have hbody : executeBlock (fuel + 9) f (c.env.length + 1) importBody importBody m₁ =
      .done (.returned [v]) (m₁.pushCell v) := by
    unfold importBody
    rw [List.cons_append, executeBlock_next hfirst]
    exact executeBlock_returned (execute_choose_yes htest rfl hbranch)
  rw [call_closure hc.closure hc.params hc.variadic hdepth hcrossings, hc.body]
  exact congrArg Step.results hbody

/-- The function that begins a search. -/
theorem call_gmatch {pattern : Bytes} :
    call (fuel + 1) trace (.builtin (.string .gmatch)) [.string path, .string pattern] m =
      .done [.matcher m.searches.size]
        { m with searches := m.searches.push ⟨path, pattern, 0, none⟩ } := by
  rw [call]
  rfl

/-- **The walk among the globals.**

**Proof sketch.** The walk begins at the table of globals. The loop takes it along the segments of
the path. -/
theorem executeBlock_walk (base : Nat) (whole : Block) {g f : Frame}
    (hf : f = g.withEnv (g.bind "value".toList m.cells.size))
    (hpath : Binds m g.env "path".toList (.string path)) (hg : Prepared m g.env modules)
    (hroot : Env.find? g.env "_G".toList = none) :
    ∃ m', (∀ fuel, executeBlock (fuel + (segments path).length + 20) g base whole walkBody m =
        executeBlock (fuel + (segments path).length + 18) f base whole (walkBody.drop 2) m') ∧
      Binds m' f.env "value".toList (walk m (m.global "_G") (segments path)) ∧
      m.Extends m' ∧ m'.tables = m.tables := by
  subst hf
  let root := m.global "_G"
  let keys := segments path
  let m₁ := m.pushCell root
  let x : Variable := ⟨"value".toList, m.cells.size, g.level⟩
  let f := g.withEnv (g.bind "value".toList m.cells.size)
  have hfirst (fuel : Nat) : execute (fuel + keys.length + 19) g
      (.declare [("value".toList, .regular)] [.var "_G".toList]) m = .done (.next f.env) m₁ := by
    have hvalue : evaluateList (fuel + keys.length + 18) g [.var "_G".toList] m =
        .done [root] m :=
      evaluateList_value rfl (by simp) (evaluate_global hroot hg.globals)
    exact execute_declare hvalue
  -- The search begins.
  let m₂ : Machine := { m₁ with searches := m₁.searches.push (segmentSearch path) }
  have hgmatch : Binds m₁ f.env "__gmatch".toList (.builtin (.string .gmatch)) :=
    hg.gmatch.declare (by simp)
  have hpath₁ : Binds m₁ f.env "path".toList (.string path) := hpath.declare (by simp)
  have hargs (fuel : Nat) : evaluateList (fuel + keys.length + 15) f
      [.var "path".toList, .string (Bytes.ofText "[^%.]+")] m₁ =
        .done [.string path, .string segmentPattern] m₁ :=
    evaluateList_cons (evaluate_var hpath₁) (evaluateList_value rfl (by simp) evaluate_string)
  have hsearch (fuel : Nat) :
      evaluateList (fuel + keys.length + 17) f [.call 14 (.var "__gmatch".toList)
      [.var "path".toList, .string (Bytes.ofText "[^%.]+")]] m₁ =
        .done [.matcher m₁.searches.size] m₂ := by
    rw [evaluateList_one, evaluateAll_call (evaluate_var hgmatch) (hargs fuel),
      callAt_function rfl]
    exact call_gmatch
  -- The variables in the loop: the value, and the function that gives the type of one.
  obtain ⟨y, hy, hycell⟩ := hg.type
  have hy' : Env.find? f.env "__type".toList = some y := by
    rw [← hy]
    rfl
  have hylt : y.cell < m.cells.size := (Array.getElem?_eq_some_iff.mp hycell).1
  have hx : m₂.cells[x.cell]? = some root := by simp [m₂, m₁, x, Machine.pushCell]
  have hwalking : Walking m₂ m₁.searches.size x y keys root :=
    ⟨⟨_, by simp [m₂], finds_segments path⟩, hx, Grows.push _ _ _ _ hycell⟩
  obtain ⟨m', hloop, halters, hvalue⟩ := runGeneric_segments (f := f) rfl hy'
    (by simp; omega) .nil hwalking
  have hm₂ : m.Alters x.cell m₂ := (Machine.Alters.pushCell _ m root).trans
    ⟨rfl, rfl, rfl, rfl, fun _ _ _ h => h⟩
  refine ⟨m', fun fuel => ?_, ⟨x, rfl, ?_⟩, (hm₂.trans halters).extends_of_le (by simp [x]),
    (hm₂.trans halters).tables⟩
  · have hloop' := hloop (fuel + 4)
    rw [show fuel + 4 + (segments path).length + 13 = fuel + (segments path).length + 17 by omega]
      at hloop'
    exact (executeBlock_next (hfirst fuel)).trans
      (executeBlock_next ((execute_genericFor (hsearch fuel)).trans hloop'))
  · rw [hvalue]
    exact congrArg some (walk_congr (show m₂.tables = m.tables from rfl) root keys)

/-- The end of the walk gives what it has come to. -/
theorem executeBlock_walk_found (base : Nat) (whole : Block) {f : Frame}
    (hv : Binds m f.env "value".toList v) (hne : v.isNil = false) :
    executeBlock (fuel + 6) f base whole (walkBody.drop 2) m = .done (.returned [v]) m := by
  have htest : execute (fuel + 5) f
      (.choose (.binary 21 .eq (.var "value".toList) .nil) [notFoundStat] []) m =
        .done (.next f.env) m :=
    execute_choose_no (evaluate_isNil hv .eq (by simp) (by simp)
      (by rw [BinaryOp.apply, rawEq_nil hne])) rfl
  exact (executeBlock_next htest).trans
    (executeBlock_returned (execute_yields_value rfl (by simp) (evaluate_var hv)))

/-- The function that raises an error puts the place of the call around it in front of the text. -/
theorem call_error (trace : Trace) (site : Site) (b : Bytes) :
    call (fuel + 1) (trace.push site) (.builtin (.base .error)) [.string b, .number (.int 2)] m =
      .raised (.string (trace.siteText 1 ++ b)) m := by
  rw [call]
  rfl

/-- **The error of an import that is not found,** which names the place of the call. -/
def notFoundError (trace : Trace) (path : Bytes) : Value :=
  .string (trace.siteText 1 ++ (Bytes.ofText "module '" ++ (path ++ Bytes.ofText "' not found")))

/-- **The end of the walk raises an error** if it has come to nothing. -/
theorem executeBlock_walk_missing (base : Nat) (whole : Block) {f : Frame}
    (hv : Binds m f.env "value".toList .nil)
    (hpath : Binds m f.env "path".toList (.string path))
    (hglobals : Binds m f.env environmentName (.table globalTable))
    (herror : Env.find? f.env "error".toList = none)
    (hraises : m.global "error" = .builtin (.base .error)) :
    executeBlock (fuel + 18) f base whole (walkBody.drop 2) m =
      .raised (notFoundError f.trace path) m := by
  have htest : evaluate (fuel + 16) f (.binary 21 .eq (.var "value".toList) .nil) m =
      .done (.bool true) m := evaluate_isNil hv .eq (by simp) (by simp) rfl
  have hfunction : evaluate (fuel + 13) f (.var "error".toList) m =
      .done (.builtin (.base .error)) m :=
    (evaluate_global herror hglobals).trans (congrArg (Step.done · m) hraises)
  have hend : evaluate (fuel + 11) f (.binary 22 .concat (.var "path".toList)
      (.string (Bytes.ofText "' not found"))) m =
        .done (.string (path ++ Bytes.ofText "' not found")) m :=
    evaluate_binary (by simp) (by simp) (evaluate_var hpath) evaluate_string rfl
  have hmessage : evaluate (fuel + 12) f (.binary 22 .concat (.string (Bytes.ofText "module '"))
      (.binary 22 .concat (.var "path".toList) (.string (Bytes.ofText "' not found")))) m =
        .done (.string (Bytes.ofText "module '" ++ (path ++ Bytes.ofText "' not found"))) m :=
    evaluate_binary (by simp) (by simp) evaluate_string hend rfl
  have hlevel : evaluateList (fuel + 12) f [.number (.int 2)] m = .done [.number (.int 2)] m := by
    refine evaluateList_value rfl (by simp) ?_
    rw [evaluate]
    rfl
  have hstat : execute (fuel + 15) f notFoundStat m = .raised (notFoundError f.trace path) m := by
    refine execute_call_raised ?_
    rw [evaluateAll_call hfunction (evaluateList_cons hmessage hlevel), callAt_function rfl]
    exact call_error f.trace ⟨f.chunk, 22⟩ _
  exact executeBlock_raised (execute_choose_raised htest rfl (executeBlock_raised hstat))

/-- **An import that is no module** is looked for among the globals: the run of the function comes
to the end of the walk. -/
theorem call_import_global (hc : Importer m n modules c)
    (hdepth : trace.depth < maxDepth) (hcrossings : trace.crossings < maxCrossings)
    (hmodule : (m.tables.getD modules {}).get (.string path) = .nil) :
    ∃ f base m', (∀ fuel, call (fuel + (segments path).length + 23) trace (.closure n)
          [.string path] m =
        (executeBlock (fuel + (segments path).length + 18) f base importBody (walkBody.drop 2)
          m').results) ∧
      Binds m' f.env "value".toList (importValue m modules path) ∧
      Binds m' f.env "path".toList (.string path) ∧
      Binds m' f.env environmentName (.table globalTable) ∧
      Env.find? f.env "error".toList = none ∧ f.trace = trace ∧ m.Extends m' ∧
      m'.tables = m.tables := by
  let f := c.frame trace "path".toList m.cells.size
  let m₁ := m.pushCell (.string path)
  let m₂ := m₁.pushCell .nil
  let g := f.withEnv (f.bind "module".toList m₁.cells.size)
  have hpath : Binds m₁ f.env "path".toList (.string path) := .declared rfl
  have hprepared : Prepared m₁ f.env modules :=
    (hc.prepared.grow (.push _ _)).cons (by simp [Prepared.names, environmentName])
  have hfirst (fuel : Nat) : execute (fuel + (segments path).length + 21) f
      (.declare [("module".toList, .regular)]
        [.index 9 (.var "__modules".toList) (.var "path".toList)]) m₁ = .done (.next g.env) m₂ := by
    rw [execute_module hpath hprepared.modules]
    show Step.done _ (m₁.pushCell ((m.tables.getD modules {}).get (.string path))) = _
    rw [hmodule]
    rfl
  have hnil : Binds m₂ g.env "module".toList .nil := .declared rfl
  have htest (fuel : Nat) : execute (fuel + (segments path).length + 20) g
      (.choose (.binary 10 .ne (.var "module".toList) .nil) [.yields [.var "module".toList]] [])
        m₂ = .done (.next g.env) m₂ :=
    execute_choose_no (evaluate_isNil hnil .ne (by simp) (by simp) rfl) rfl
  have hroot : Env.find? g.env "_G".toList = none := by
    rw [← hc.globals]
    rfl
  have hprepared₂ : Prepared m₂ g.env modules :=
    (hprepared.grow (.push _ _)).cons (by simp [Prepared.names, environmentName])
  have hpath₂ : Binds m₂ g.env "path".toList (.string path) := hpath.declare (by simp)
  let h := g.withEnv (g.bind "value".toList m₂.cells.size)
  obtain ⟨m', hwalk, hvalue, hm', htables⟩ := executeBlock_walk (f := h)
    (c.env.length + 1) importBody rfl hpath₂ hprepared₂ hroot
  refine ⟨h, c.env.length + 1, m', fun fuel => ?_, ?_, (hpath₂.grow hm'.cells).cons (by simp),
    (hprepared₂.globals.grow hm'.cells).cons (by simp [environmentName]), ?_, rfl,
    ((Machine.Extends.pushCell m _).trans (.pushCell m₁ _)).trans hm', htables⟩
  · rw [call_closure hc.closure hc.params hc.variadic hdepth hcrossings, hc.body]
    exact congrArg Step.results ((executeBlock_next (hfirst fuel)).trans
      ((executeBlock_next (htest fuel)).trans (hwalk fuel)))
  · have hsame : importValue m modules path = walk m₂ (m₂.global "_G") (segments path) := by
      rw [importValue, hmodule]
      exact (walk_congr (show m₂.tables = m.tables from rfl) _ _).symm
    rwa [hsame]
  · rw [← hc.error]
    rfl

/-- **An import that is found** gives what it comes to. -/
theorem call_import (trace : Trace) (hc : Importer m n modules c)
    (hdepth : trace.depth < maxDepth) (hcrossings : trace.crossings < maxCrossings)
    (hne : (importValue m modules path).isNil = false) :
    ∃ m', (∀ fuel, call (fuel + (segments path).length + 23) trace (.closure n) [.string path] m =
        .done [importValue m modules path] m') ∧ m.Extends m' ∧ m'.tables = m.tables := by
  by_cases hmodule : ((m.tables.getD modules {}).get (.string path)).isNil = true
  · have hnil : (m.tables.getD modules {}).get (.string path) = .nil := by
      cases hv : (m.tables.getD modules {}).get (.string path) <;> simp_all [Value.isNil]
    obtain ⟨f, base, m', hcall, hvalue, -, -, -, -, hm', htables⟩ :=
      call_import_global hc hdepth hcrossings hnil
    refine ⟨m', fun fuel => ?_, hm', htables⟩
    rw [hcall, executeBlock_walk_found base importBody hvalue hne]
    rfl
  · have hv : importValue m modules path = (m.tables.getD modules {}).get (.string path) := by
      rw [importValue]
      exact if_neg hmodule
    rw [hv] at hne ⊢
    exact ⟨_, fun fuel => call_import_module hc hdepth hcrossings rfl hne,
      (Machine.Extends.pushCell m _).trans (.pushCell _ _), rfl⟩

/-- **An import that is not found** raises an error. -/
theorem call_import_missing (trace : Trace) (hc : Importer m n modules c)
    (hdepth : trace.depth < maxDepth) (hcrossings : trace.crossings < maxCrossings)
    (hraises : m.global "error" = .builtin (.base .error))
    (hnil : importValue m modules path = .nil) :
    ∃ m', ∀ fuel, call (fuel + (segments path).length + 23) trace (.closure n) [.string path] m =
      .raised (notFoundError trace path) m' := by
  have hmodule : (m.tables.getD modules {}).get (.string path) = .nil := by
    cases hv : (m.tables.getD modules {}).get (.string path) <;>
      simp_all [importValue, Value.isNil]
  obtain ⟨f, base, m', hcall, hvalue, hpath, hglobals, herror, htrace, -, htables⟩ :=
    call_import_global hc hdepth hcrossings hmodule
  rw [hnil] at hvalue
  have hraises' : m'.global "error" = .builtin (.base .error) := by
    rw [← hraises, Machine.global, htables]
    rfl
  refine ⟨m', fun fuel => ?_⟩
  rw [hcall, executeBlock_walk_missing base importBody hvalue hpath hglobals herror hraises',
    htrace]
  rfl

end Importer

/-! ## The statements of the imports -/

/-- The function that finds imports in a machine with more in it. -/
theorem Importer.extend {m m' : Machine} {n modules : Nat} {c : Closure}
    (h : Importer m n modules c) (hm : m.Extends m') : Importer m' n modules c :=
  ⟨hm.closures _ _ h.closure, h.params, h.variadic, h.body, h.prepared.grow hm.cells, h.globals,
    h.error⟩

/-- The values of the call in the statement of an import are those of the function. -/
theorem evaluateList_import (fuel l : Nat) {n : Nat} {f : Frame} {m : Machine} {path : Bytes}
    (himport : Binds m f.env "__import".toList (.closure n)) :
    evaluateList (fuel + 6) f [.call l (.var "__import".toList) [.string path]] m =
      call (fuel + 3) (f.traceAt l) (.closure n) [.string path] m := by
  have hargs : evaluateList (fuel + 4) f [.string path] m = .done [.string path] m :=
    evaluateList_value rfl (by simp) evaluate_string
  rw [evaluateList_one, evaluateAll_call (evaluate_var himport) hargs, callAt_function rfl]

/-- **The statement of an import** binds a local to what the import comes to. -/
theorem execute_import (l : Nat) {n modules : Nat} {f : Frame} {m : Machine} {c : Closure}
    {i : Import} (hc : Importer m n modules c)
    (himport : Binds m f.env "__import".toList (.closure n))
    (hdepth : f.trace.depth + 1 < maxDepth) (hcrossings : f.trace.crossings < maxCrossings)
    (hne : (importValue m modules (Bytes.ofText i.2)).isNil = false) :
    ∃ m', (∀ fuel, execute (fuel + (segments (Bytes.ofText i.2)).length + 27) f (importStat i l) m =
        .done (.next (f.bind i.1.toList m'.cells.size))
          (m'.pushCell (importValue m modules (Bytes.ofText i.2)))) ∧
      m.Extends m' ∧ m'.tables = m.tables := by
  obtain ⟨m', hcall, hm'⟩ := call_import (f.traceAt l) hc hdepth hcrossings hne
  refine ⟨m', fun fuel => ?_, hm'⟩
  have hvalue : evaluateList (fuel + (segments (Bytes.ofText i.2)).length + 26) f
      [.call l (.var "__import".toList) [.string (Bytes.ofText i.2)]] m =
        .done [importValue m modules (Bytes.ofText i.2)] m' :=
    (evaluateList_import _ l himport).trans (hcall fuel)
  exact execute_declare hvalue

/-- The statement of an import that is not found raises an error. -/
theorem execute_import_missing (l : Nat) {n modules : Nat} {f : Frame} {m : Machine}
    {c : Closure} {i : Import} (hc : Importer m n modules c)
    (himport : Binds m f.env "__import".toList (.closure n))
    (hdepth : f.trace.depth + 1 < maxDepth) (hcrossings : f.trace.crossings < maxCrossings)
    (hraises : m.global "error" = .builtin (.base .error))
    (hnil : importValue m modules (Bytes.ofText i.2) = .nil) :
    ∃ m', ∀ fuel, execute (fuel + (segments (Bytes.ofText i.2)).length + 27) f (importStat i l) m =
      .raised (notFoundError (f.traceAt l) (Bytes.ofText i.2)) m' := by
  obtain ⟨m', hcall⟩ := call_import_missing (f.traceAt l) hc hdepth hcrossings hraises hnil
  exact ⟨m', fun fuel =>
    execute_declare_raised ((evaluateList_import _ l himport).trans (hcall fuel))⟩

/-- **What imports leave behind:** each has bound its local, and of several with one local the last
one counts. Nothing else has changed. -/
structure Imported (modules : Nat) (imports : List Import) (m : Machine) (env : Env)
    (m' : Machine) (env' : Env) : Prop where
  more : m.Extends m'
  tables : m'.tables = m.tables
  others : ∀ {name : Ident} {x : Value}, (∀ i ∈ imports, i.1.toList ≠ name) →
    Binds m env name x → Binds m' env' name x
  bound : ∀ {before after : List Import} {i : Import}, imports = before ++ i :: after →
    (∀ j ∈ after, j.1.toList ≠ i.1.toList) →
    Binds m' env' i.1.toList (importValue m modules (Bytes.ofText i.2))

/-- **The statements of imports** that are found bind one local after another.

**Proof sketch.** By induction on the imports. What the first one comes to is bound, and stays
bound unless another import has the same local. -/
theorem executeBlock_imports (bound l base : Nat) (whole : Block) {n modules : Nat} {f : Frame}
    {m : Machine} {c : Closure} (imports : List Import)
    (hc : Importer m n modules c) (himport : Binds m f.env "__import".toList (.closure n))
    (hdepth : f.trace.depth + 1 < maxDepth) (hcrossings : f.trace.crossings < maxCrossings)
    (hfree : ∀ i ∈ imports, i.1.toList ≠ "__import".toList)
    (hbound : ∀ i ∈ imports, (segments (Bytes.ofText i.2)).length ≤ bound)
    (hne : ∀ i ∈ imports, (importValue m modules (Bytes.ofText i.2)).isNil = false) :
    ∃ m' env', (∀ fuel rest, executeBlock (fuel + bound + 27 + imports.length) f base whole
          (importTree l imports ++ rest) m =
        executeBlock (fuel + bound + 27) (f.withEnv env') base whole rest m') ∧
      Imported modules imports m f.env m' env' := by
  induction imports generalizing f m l with
  | nil =>
    refine ⟨m, f.env, fun _ _ => rfl, .refl m, rfl, fun _ h => h, ?_⟩
    intro before after i himports
    simp at himports
  | cons i imports ih =>
    have hi := hbound i (by simp)
    obtain ⟨m₁, hfirst, hmore, htables⟩ := execute_import l hc himport hdepth hcrossings
      (hne i (by simp))
    -- The machine and the variables behind the first import.
    let m₂ := m₁.pushCell (importValue m modules (Bytes.ofText i.2))
    let g := f.withEnv (f.bind i.1.toList m₁.cells.size)
    have hmore₂ : m.Extends m₂ := hmore.trans (.pushCell m₁ _)
    have himport₂ : Binds m₂ g.env "__import".toList (.closure n) :=
      (himport.grow hmore₂.cells).cons (hfree i (by simp))
    have hsame (path : Bytes) : importValue m₂ modules path = importValue m modules path :=
      importValue_congr (show m₂.tables = m.tables from htables) modules path
    obtain ⟨m', env', hrest, himported⟩ := ih (l + 1) (f := g) (m := m₂) (hc.extend hmore₂)
      himport₂ hdepth hcrossings (fun j hj => hfree j (by simp [hj]))
      (fun j hj => hbound j (by simp [hj])) (fun j hj => by rw [hsame]; exact hne j (by simp [hj]))
    refine ⟨m', env', fun fuel rest => ?_, hmore₂.trans himported.more,
      himported.tables.trans htables, ?_, ?_⟩
    · have hi' := hfirst (fuel + (bound - (segments (Bytes.ofText i.2)).length) + imports.length)
      rw [show fuel + (bound - (segments (Bytes.ofText i.2)).length) + imports.length +
        (segments (Bytes.ofText i.2)).length + 27 = fuel + bound + 27 + imports.length by omega]
        at hi'
      exact (executeBlock_next hi').trans (hrest fuel rest)
    · intro name x hname hx
      refine himported.others (fun j hj => hname j (by simp [hj])) ?_
      exact (hx.grow hmore₂.cells).cons (hname i (by simp))
    · intro before after j hsplit hafter
      cases before with
      | nil =>
        obtain ⟨rfl, rfl⟩ := List.cons.inj hsplit
        exact himported.others hafter (.declared rfl)
      | cons k before =>
        rw [← hsame]
        exact himported.bound (List.cons.inj hsplit).2 hafter

/-- **The first import that is not found** raises an error. -/
theorem executeBlock_imports_missing (bound l base : Nat) (whole : Block)
    (before after : List Import) {n modules : Nat} {f : Frame} {m : Machine} {c : Closure}
    {i : Import} (hc : Importer m n modules c)
    (himport : Binds m f.env "__import".toList (.closure n))
    (hdepth : f.trace.depth + 1 < maxDepth) (hcrossings : f.trace.crossings < maxCrossings)
    (hfree : ∀ i ∈ before, i.1.toList ≠ "__import".toList)
    (hbound : ∀ j ∈ before ++ [i], (segments (Bytes.ofText j.2)).length ≤ bound)
    (hne : ∀ i ∈ before, (importValue m modules (Bytes.ofText i.2)).isNil = false)
    (hraises : m.global "error" = .builtin (.base .error))
    (hnil : importValue m modules (Bytes.ofText i.2) = .nil) :
    ∃ m', ∀ fuel rest, executeBlock (fuel + bound + 28 + before.length) f base whole
        (importTree l (before ++ i :: after) ++ rest) m =
      .raised (notFoundError (f.traceAt (l + before.length)) (Bytes.ofText i.2)) m' := by
  obtain ⟨m₁, env, hbefore, himported⟩ := executeBlock_imports bound l base whole before
    hc himport hdepth hcrossings hfree (fun j hj => hbound j (by simp [hj])) hne
  have hraises₁ : m₁.global "error" = .builtin (.base .error) := by
    rw [← hraises, Machine.global, himported.tables]
    rfl
  obtain ⟨m', hi⟩ := execute_import_missing (l + before.length) (f := f.withEnv env)
    (hc.extend himported.more) (himported.others hfree himport) hdepth hcrossings hraises₁
    (by rw [importValue_congr himported.tables, hnil])
  have htree (rest : Block) : importTree l (before ++ i :: after) ++ rest = importTree l before ++
      (importStat i (l + before.length) ::
        (importTree (l + before.length + 1) after ++ rest)) := by
    simp [importTree, List.zipIdx_append]
  refine ⟨m', fun fuel rest => ?_⟩
  have hle := hbound i (by simp)
  have hi' := hi (fuel + (bound - (segments (Bytes.ofText i.2)).length))
  rw [show fuel + (bound - (segments (Bytes.ofText i.2)).length) +
    (segments (Bytes.ofText i.2)).length + 27 = fuel + bound + 27 by omega] at hi'
  rw [htree,
    show fuel + bound + 28 + before.length = fuel + 1 + bound + 27 + before.length by omega,
    hbefore, show fuel + 1 + bound + 27 = fuel + bound + 27 + 1 by omega]
  exact executeBlock_raised hi'

end Stencil.Lua
