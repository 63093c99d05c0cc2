import Stencil.Proofs.Lua.Hygiene
set_option autoImplicit false

/-!
# The imports of a program

A program begins with the prelude and with one statement for each path that it imports, in the
order of the paths. The statement binds the last segment of the path to what the path comes to. So
of several paths with one last segment the greatest one counts, and the others are lost; nothing
rejects them.

## Main definitions

* `Stencil.Lua.Comes` — statements that are run to their end, whatever comes behind them.
* `Stencil.Lua.Imports`, `Counts` — the paths that an input imports, and those that count.
* `Stencil.Lua.Bound` — what the imports leave behind.

## Main results

* `Stencil.Lua.Outline.exists_rest` — a program begins with its imports, whatever its parts say.
* `Stencil.Lua.generate_imports` — what a program has bound at the end of its imports.
* `Stencil.Lua.exists_import_overwritten` — of two paths with one last segment the first is lost.
-/

namespace Stencil.Lua

/-! ## Reading the beginning of a program -/

namespace Outline

variable {o : Outline}

/-- The tokens of a program up to the function that renders, whatever comes behind them. -/
theorem exists_tokenize {first : String} (body : List String) (hfirst : LineReads first [])
    (himports : ∀ i ∈ o.imports, isIdentifier i.1 = true) :
    ∃ k more, tokenize (o.text first body).toList = locate 2 preludeTokens ++
      (locate 27 (o.imports.map fun i => importTokens i.1 i.2) ++
        ⟨.keyword .«local», k⟩ :: more) := by
  let before : List String := [first] ++ prelude ++ o.imports.map fun i => importStatement i.1 i.2
  let tss : List (List Token) := [[]] ++ preludeTokens ++ o.imports.map fun i =>
    importTokens i.1 i.2
  have hreads : List.Forall₂ LineReads before tss := by
    refine List.rel_append (List.rel_append (.cons hfirst .nil) lineReads_prelude) ?_
    rw [List.forall₂_map_left_iff, List.forall₂_map_right_iff, List.forall₂_same]
    exact fun i hi => lineReads_import (himports i hi) i.2
  obtain ⟨tail, htail⟩ : ∃ tail, (o.text first body).toList =
      (lines before).toList ++ '\n' :: ("local ".toList ++ tail) := by
    have htext : (o.text first body).toList = (lines before).toList ++
        (lines ("" :: ("local function __render(" ++ ", ".intercalate o.parameters ++ ")") ::
          (renderPrologue ++ body ++ endLines (o.arguments.map Passed.text)))).toList := by
      rw [text, opening, toList_lines, toList_lines, toList_lines, ← List.flatMap_append]
      simp [before]
    rw [htext, toList_lines ("" :: _), List.flatMap_cons, List.flatMap_cons]
    exact ⟨_, by simp; rfl⟩
  have hlocal : ReadsAs Anything "local ".toList [.keyword .«local»] :=
    readsAs_anything 2 fun _ _ _ => rfl
  have hprelude : ([[]] ++ preludeTokens : List (List Token)).length = 26 := rfl
  refine ⟨1 + before.length + 1, lex (1 + before.length + 1) tail, ?_⟩
  rw [tokenize_eq_lex, htail, lex_lines_append hreads (by simp) 1, lex_lf _ (by simp),
    hlocal _ tail trivial, locate_append, hprelude, List.append_assoc]
  rfl

/-- **A program begins with its imports,** whatever its parts say. -/
theorem exists_rest {first : String} {body : List String} (hfirst : LineReads first [])
    (himports : ∀ i ∈ o.imports, isIdentifier i.1 = true) (hne : o.imports ≠ []) {b : Block}
    {line : Nat} (h : Block.ofTokens (tokenize (o.text first body).toList) = .ok (b, line)) :
    ∃ rest, b = preambleTree o.imports ++ rest := by
  obtain ⟨k, more, htokens⟩ := exists_tokenize body hfirst himports
  obtain ⟨-, p, hblock, -, -⟩ := Block.ofTokens_eq_ok_iff.mp h
  rw [htokens] at hblock
  have hprelude : 34 ≤ preludeTokens.flatten.length := by decide
  have hcount := length_le_length_flatten (fun i : Import => importTokens i.1 i.2) o.imports
    (by simp [importTokens])
  obtain ⟨fuel, hfuel⟩ : ∃ fuel, Reader.depth (locate 2 preludeTokens ++
      (locate 27 (o.imports.map fun i => importTokens i.1 i.2) ++
        ⟨.keyword .«local», k⟩ :: more)) = fuel + o.imports.length + 26 + 40 := by
    refine ⟨16 * ((locate 2 preludeTokens ++
      (locate 27 (o.imports.map fun i => importTokens i.1 i.2) ++
        ⟨.keyword .«local», k⟩ :: more)).length + 1) - (o.imports.length + 66), ?_⟩
    rw [Reader.depth]
    simp only [List.length_append, length_locate, List.length_cons]
    omega
  obtain ⟨first', hfirst'⟩ : ∃ first', locate 27 (o.imports.map fun i => importTokens i.1 i.2) ++
      ⟨.keyword .«local», k⟩ :: more = ⟨.keyword .«local», 27⟩ :: first' := by
    obtain ⟨i, is, his⟩ := List.exists_cons_of_ne_nil hne
    rw [his]
    exact ⟨_, rfl⟩
  obtain ⟨l, hread⟩ := block_imports_eq (fuel + 60) 27 25 o.imports
    (show ∃ k' more', ⟨.keyword .«local», k⟩ :: more = ⟨.keyword .«local», k'⟩ :: more' from
      ⟨_, _, rfl⟩) (by omega)
  rw [hfuel, show fuel + o.imports.length + 26 + 40 = fuel + o.imports.length + 20 + 46 by omega,
    block_prelude_eq _ 1 ⟨_, hfirst'⟩,
    show fuel + o.imports.length + 20 + 40 = fuel + 60 + o.imports.length by omega, hread,
    Reader.behind_behind] at hblock
  obtain ⟨rest, -, rfl⟩ := Reader.exists_of_behind hblock
  exact ⟨rest, rfl⟩

end Outline

/-! ## Running the beginning of a program -/

/-- **Statements that are run to their end,** whatever comes behind them: to a machine and to
variables. -/
def Comes (f : Frame) (base : Nat) (whole b : Block) (m m' : Machine) (env : Env) : Prop :=
  ∃ k l, ∀ steps rest, executeBlock (steps + k) f base whole (b ++ rest) m =
    executeBlock (steps + l) (f.withEnv env) base whole rest m'

/-- **Statements that raise an error,** whatever comes behind them. -/
def Fails (f : Frame) (base : Nat) (whole b : Block) (m : Machine) : Prop :=
  ∃ k e m', ∀ steps rest, executeBlock (steps + k) f base whole (b ++ rest) m = .raised e m'

/-- **Statements that are run to their end** if there are at least `k` steps for them. -/
def ComesIn (k : Nat) (f : Frame) (base : Nat) (whole b : Block) (m m' : Machine) (env : Env) :
    Prop :=
  ∃ l, ∀ steps rest, executeBlock (steps + k) f base whole (b ++ rest) m =
    executeBlock (steps + l) (f.withEnv env) base whole rest m'

/-- **Statements that raise an error** if there are at least `k` steps for them. -/
def RaisesIn (k : Nat) (f : Frame) (base : Nat) (whole b : Block) (m : Machine) (e : Value) :
    Prop :=
  ∃ m', ∀ steps rest, executeBlock (steps + k) f base whole (b ++ rest) m = .raised e m'

section Fragments

variable {f : Frame} {base k k' : Nat} {whole b c : Block} {m m' m'' : Machine} {env env' : Env}
  {e : Value}

/-- Statements that are run to their end in some number of steps. -/
theorem ComesIn.comes (h : ComesIn k f base whole b m m' env) : Comes f base whole b m m' env := by
  obtain ⟨l, h⟩ := h
  exact ⟨k, l, h⟩

/-- Statements that raise an error in some number of steps. -/
theorem RaisesIn.fails (h : RaisesIn k f base whole b m e) : Fails f base whole b m := by
  obtain ⟨m', h⟩ := h
  exact ⟨k, e, m', h⟩

/-- Statements one behind the other. -/
theorem ComesIn.append (h : ComesIn k f base whole b m m' env)
    (hc : ComesIn k' (f.withEnv env) base whole c m' m'' env') :
    ComesIn (k + k') f base whole (b ++ c) m m'' env' := by
  obtain ⟨l, hb⟩ := h
  obtain ⟨l', hc⟩ := hc
  refine ⟨l + l', fun steps rest => ?_⟩
  rw [List.append_assoc, show steps + (k + k') = steps + k' + k by omega, hb,
    show steps + k' + l = steps + l + k' by omega, hc (steps + l) rest, Nat.add_assoc]
  rfl

/-- Statements that raise an error behind others. -/
theorem ComesIn.raises (h : ComesIn k f base whole b m m' env)
    (hc : RaisesIn k' (f.withEnv env) base whole c m' e) :
    RaisesIn (k + k') f base whole (b ++ c) m e := by
  obtain ⟨l, hb⟩ := h
  obtain ⟨m'', hc⟩ := hc
  refine ⟨m'', fun steps rest => ?_⟩
  rw [List.append_assoc, show steps + (k + k') = steps + k' + k by omega, hb,
    show steps + k' + l = steps + l + k' by omega]
  exact hc _ rest

end Fragments

namespace Chunk

/-- The function of the statements of a chunk, in a machine. -/
def closure (c : Chunk) (b : Block) (m : Machine) : Closure :=
  ⟨[], true, b, [⟨environmentName, m.cells.size, 0⟩], 0, c.name⟩

/-- The machine in which the statements of a chunk begin. -/
def machine (c : Chunk) (b : Block) (m : Machine) : Machine :=
  (m.pushCell (.table globalTable)).pushClosure (c.closure b m)

/-- The frame in which they run. -/
def frame (c : Chunk) (b : Block) (args : Arguments) (m : Machine) : Frame :=
  (c.closure b m).chunkFrame .start args

/-- The statements of a chunk are those that its tokens are read as. -/
theorem exists_line_of_read {c : Chunk} {b : Block} (h : c.read = .ok b) :
    ∃ line, Block.ofTokens (tokenize c.source.toList) = .ok (b, line) := by
  rw [read] at h
  split at h
  · cases h
  · rename_i line htokens
    split at h
    · cases h
    · obtain rfl := Except.ok.inj h
      exact ⟨line, htokens⟩

/-- **A chunk is run** by its statements, one after another. -/
theorem run_succ (c : Chunk) (steps : Nat) (b : Block) (args : Arguments) (m : Machine) :
    c.run (steps + 1) b args m =
      (executeBlock steps (c.frame b args m) 1 b b (c.machine b m)).results := by
  have hclosure : (c.machine b m).closures[m.closures.size]? = some (c.closure b m) := by
    simp [machine, Machine.pushClosure, Machine.pushCell]
  exact call_chunk hclosure rfl rfl (by decide) (by decide) args

/-- The functions that find imports are seen at the beginning of a chunk. -/
theorem bare (c : Chunk) (b : Block) (args : Arguments) {m : Machine} (h : Furnished m) :
    Bare (c.machine b m) (c.frame b args m).env := by
  have hfree : ∀ name ∈ neededGlobals,
      Env.find? [⟨environmentName, m.cells.size, 0⟩] name.toList = none := by
    simp [neededGlobals, Env.find?, environmentName]
  exact ⟨h.congr rfl, .head (by simp [machine, Machine.pushClosure, Machine.pushCell]), hfree⟩

end Chunk

/-! ## What the imports leave behind -/

/-- **The paths that an input imports.** The support table is always one of them. -/
def Imports (input : HandlerInput) (path : String) : Prop :=
  path ∈ input.imports.toList ∨ path = supportName

/-- **The paths that count:** the greatest one for each last segment. -/
def Counts (input : HandlerInput) (path : String) : Prop :=
  Imports input path ∧
    ∀ other, Imports input other → lastSegment other = lastSegment path → other ≤ path

/-- **What the imports leave behind,** for a table of modules and the machine before them: each path
is found, and each path that counts is bound to its last segment. -/
structure Bound (input : HandlerInput) (modules : Nat) (m m' : Machine) (env : Env) : Prop where
  returned : ∃ n, Binds m' env "__import".toList (.closure n) ∧ ∀ path, Imports input path →
    (importValue m modules (Bytes.ofText path)).isNil = false ∧
      ∃ k m'', ∀ fuel, call (fuel + k) .start (.closure n) [.text path] m' =
        .done [importValue m modules (Bytes.ofText path)] m''
  bound : ∀ path, Counts input path →
    Binds m' env (lastSegment path).toList (importValue m modules (Bytes.ofText path))

/-- The imports of a program are those of its input, each with its last segment. -/
theorem mem_imports_iff (input : HandlerInput) (i : Import) :
    i ∈ (Outline.ofInput input).imports ↔ Imports input i.2 ∧ i.1 = lastSegment i.2 := by
  have hcontains := contains_iff_mem_toList input.imports supportName
  have hlast : lastSegment supportName = supportName := by decide
  obtain ⟨name, path⟩ := i
  simp only [Outline.ofInput, List.mem_append, List.mem_map, Prod.mk.injEq, Imports]
  constructor
  · rintro (⟨other, hmem, rfl, rfl⟩ | hsupport)
    · exact ⟨.inl hmem, rfl⟩
    · split at hsupport
      · cases hsupport
      · obtain ⟨rfl, rfl⟩ := Prod.mk.inj (List.mem_singleton.mp hsupport)
        exact ⟨.inr rfl, hlast.symm⟩
  · rintro ⟨hmem | rfl, rfl⟩
    · exact .inl ⟨path, hmem, rfl, rfl⟩
    · by_cases hmem : supportName ∈ input.imports.toList
      · exact .inl ⟨supportName, hmem, rfl, rfl⟩
      · refine .inr ?_
        rw [if_neg fun h => hmem (hcontains.mp h), hlast]
        exact List.mem_singleton.mpr rfl

/-- **Behind a path that counts** no import has its last segment.

**Proof sketch.** The paths ascend, so those behind it are greater; the support table, which comes
last if the input does not name it, shares its name with no other path. -/
theorem Accepted.exists_imports_of_counts {input : HandlerInput} (h : Accepted input)
    {path : String} (hpath : Counts input path) :
    ∃ before after, (Outline.ofInput input).imports =
        before ++ (lastSegment path, path) :: after ∧
      ∀ j ∈ after, j.1.toList ≠ (lastSegment path).toList := by
  obtain ⟨hmem, hgreatest⟩ := hpath
  have hcontains := contains_iff_mem_toList input.imports supportName
  have hlast : lastSegment supportName = supportName := by decide
  by_cases hpath : path ∈ input.imports.toList
  · obtain ⟨before, after, hlist⟩ := List.append_of_mem hpath
    have hascending : (before ++ path :: after).Pairwise (· < ·) := by
      rw [← hlist]
      exact input.imports.ascending
    refine ⟨before.map fun p => (lastSegment p, p), (after.map fun p => (lastSegment p, p)) ++
      if input.imports.contains supportName then [] else [(supportName, supportName)], ?_, ?_⟩
    · simp [Outline.ofInput, hlist]
    · intro j hj heq
      have heq := String.toList_inj.mp heq
      rcases List.mem_append.mp hj with hj | hj
      · obtain ⟨other, hother, rfl⟩ := List.mem_map.mp hj
        have hlt : path < other := by
          have htail := (List.pairwise_append.mp hascending).2.1
          exact (List.pairwise_cons.mp htail).1 other hother
        have hle := hgreatest other (.inl (by simp [hlist, hother])) heq
        exact String.not_lt.mpr hle hlt
      · split at hj
        · cases hj
        · rename_i hnone
          obtain rfl := List.mem_singleton.mp hj
          -- No other path than the support table ends in its name.
          rcases (importable_iff path).mp (h.imports path hpath) with rfl | husable
          · exact hnone (hcontains.mpr hpath)
          · exact husable.notSupport heq.symm
  · obtain rfl := hmem.resolve_left hpath
    refine ⟨input.imports.toList.map fun p => (lastSegment p, p), [], ?_, by simp⟩
    rw [Outline.ofInput, if_neg fun h => hpath (hcontains.mp h), hlast]

/-- No import of an accepted input has the name of the function that finds imports. -/
theorem Accepted.ne_import {input : HandlerInput} (h : Accepted input) :
    ∀ i ∈ (Outline.ofInput input).imports, i.1.toList ≠ "__import".toList := by
  obtain ⟨before, after, himports, hbefore, hafter⟩ := h.exists_imports
  intro i hi heq
  have husable (hi : Usable i.1) : False := hi.notHelper (heq ▸ ⟨"import".toList, rfl⟩)
  rw [himports, List.mem_append, List.mem_cons] at hi
  rcases hi with hi | rfl | hi
  · exact husable (hbefore i hi)
  · simp at heq
  · exact husable (hafter i hi)

/-- **The program of an accepted input finds its imports** if the paths of the input are found. -/
theorem Accepted.resolves {input : HandlerInput} {m : Machine} {modules support : Nat}
    (h : Accepted input) (hfound : ∀ path ∈ input.imports.toList, Found m modules path)
    (hsupport : importValue m modules (Bytes.ofText supportName) = .table support) :
    (Outline.ofInput input).Resolves m modules support := by
  obtain ⟨before, after, himports, hbefore, hafter⟩ := h.exists_imports
  refine ⟨fun i hi => ?_, ⟨before, after, himports,
    fun i hi => (isUsable_iff i.1).mpr (hbefore i hi),
    fun i hi => (isUsable_iff i.1).mpr (hafter i hi)⟩, hsupport⟩
  rcases ((mem_imports_iff input i).mp hi).1 with hpath | hpath
  · exact hfound i.2 hpath
  · rw [Found, hpath, hsupport]
    rfl

/-! ## The run of the imports -/

section Imports

variable {input : HandlerInput} {m : Machine}

/-- The prelude of a chunk comes to its end. -/
theorem exists_comes_prelude (c : Chunk) (b : Block) (modules : Nat) (hm : Furnished m) :
    ∃ m' env n r, ComesIn 13 (c.frame b [.table modules] m) 1 b
        (preludeTree ++ [importFunction 27]) (c.machine b m) m' env ∧
      Importer m' n modules r ∧ Binds m' env "__import".toList (.closure n) ∧
      m'.tables = m.tables := by
  obtain ⟨m', env, n, r, hprelude, -, -, himporter, himport, htables, -⟩ :=
    executeBlock_prelude 1 27 b (c.bare b [.table modules] hm) rfl
  refine ⟨m', env, n, r, ⟨7, fun steps rest => ?_⟩, himporter, himport, htables⟩
  rw [List.append_assoc]
  exact hprelude steps rest

/-- **How many steps the imports need:** one for each of them, and one for each segment of the
longest path. -/
def importSteps (imports : List Import) (bound : Nat) : Nat := 40 + bound + imports.length

/-- **The imports of an accepted input are bound** if each is found.

**Proof sketch.** The prelude comes to its end, and then one import after another. The import of a
path that counts is the last one with its local, so it is the one that stays. -/
theorem Accepted.exists_comesIn (haccepted : Accepted input) (c : Chunk) (b : Block)
    (modules : Nat) (hm : Furnished m) {bound : Nat}
    (hbound : ∀ i ∈ (Outline.ofInput input).imports,
      (segments (Bytes.ofText i.2)).length ≤ bound)
    (hfound : ∀ path, Imports input path →
      (importValue m modules (Bytes.ofText path)).isNil = false) :
    ∃ m' env, ComesIn (importSteps (Outline.ofInput input).imports bound)
        (c.frame b [.table modules] m) 1 b (preambleTree (Outline.ofInput input).imports)
        (c.machine b m) m' env ∧
      Bound input modules m m' env := by
  obtain ⟨m₁, env₁, n, r, hprelude, himporter, himport, htables⟩ :=
    exists_comes_prelude c b modules hm
  have hvalue (path : Bytes) : importValue m₁ modules path = importValue m modules path :=
    importValue_congr htables modules path
  have hne : ∀ i ∈ (Outline.ofInput input).imports,
      (importValue m₁ modules (Bytes.ofText i.2)).isNil = false := by
    intro i hi
    rw [hvalue]
    exact hfound i.2 ((mem_imports_iff input i).mp hi).1
  obtain ⟨m₂, env₂, himports, himported⟩ := executeBlock_imports bound 27 1 b
    (f := (c.frame b [.table modules] m).withEnv env₁) (Outline.ofInput input).imports himporter
    himport (show 1 < maxDepth by decide) (show 0 < maxCrossings by decide)
    haccepted.ne_import hbound hne
  have hcomes : ComesIn (27 + bound + (Outline.ofInput input).imports.length)
      ((c.frame b [.table modules] m).withEnv env₁) 1 b
      (importTree 27 (Outline.ofInput input).imports) m₁ m₂ env₂ := by
    refine ⟨bound + 27, fun steps rest => ?_⟩
    rw [Nat.add_comm 27 bound]
    simpa only [← Nat.add_assoc] using himports steps rest
  have hall := hprelude.append hcomes
  rw [show 13 + (27 + bound + (Outline.ofInput input).imports.length) =
    importSteps (Outline.ofInput input).imports bound by rw [importSteps]; omega] at hall
  refine ⟨m₂, env₂, hall, ⟨n, himported.others haccepted.ne_import himport,
    fun path hpath => ⟨hfound path hpath, ?_⟩⟩, fun path hpath => ?_⟩
  · -- The function still gives what it gave.
    have hvalue₂ (path : Bytes) : importValue m₂ modules path = importValue m modules path :=
      (importValue_congr himported.tables modules path).trans (hvalue path)
    obtain ⟨m₃, hcall, -⟩ := call_import .start (himporter.extend himported.more) (by decide)
      (by decide) ((congrArg Value.isNil (hvalue₂ (Bytes.ofText path))).trans (hfound path hpath))
    refine ⟨(segments (Bytes.ofText path)).length + 23, m₃, fun fuel => ?_⟩
    rw [← hvalue₂]
    exact hcall fuel
  · obtain ⟨before, after, hsplit, hafter⟩ := haccepted.exists_imports_of_counts hpath
    rw [← hvalue]
    exact himported.bound (i := (lastSegment path, path)) hsplit hafter

/-- **The first import that is not found** raises the error that names it, at its line.

**Proof sketch.** The imports before the first one that is not found are bound; its own statement
raises the error. -/
theorem Accepted.raisesIn (haccepted : Accepted input) (c : Chunk) (b : Block) (modules : Nat)
    (hm : Furnished m) {bound : Nat}
    (hbound : ∀ i ∈ (Outline.ofInput input).imports,
      (segments (Bytes.ofText i.2)).length ≤ bound)
    {before after : List Import} {i : Import}
    (hsplit : (Outline.ofInput input).imports = before ++ i :: after)
    (hbefore : ∀ j ∈ before, (importValue m modules (Bytes.ofText j.2)).isNil = false)
    (hnil : importValue m modules (Bytes.ofText i.2) = .nil) :
    RaisesIn (importSteps (Outline.ofInput input).imports bound)
      (c.frame b [.table modules] m) 1 b (preambleTree (Outline.ofInput input).imports)
      (c.machine b m) (notFoundError
        ((c.frame b [.table modules] m).traceAt (27 + before.length)) (Bytes.ofText i.2)) := by
  obtain ⟨m₁, env₁, n, r, hprelude, himporter, himport, htables⟩ :=
    exists_comes_prelude c b modules hm
  have hvalue (path : Bytes) : importValue m₁ modules path = importValue m modules path :=
    importValue_congr htables modules path
  have hraises : m₁.global "error" = .builtin (.base .error) := by
    rw [← hm.error, Machine.global, htables]
    rfl
  have hmem : ∀ j ∈ before ++ [i], j ∈ before ++ i :: after := by
    intro j hj
    rw [List.append_cons]
    exact List.mem_append_left _ hj
  obtain ⟨m₂, hmissing⟩ := executeBlock_imports_missing bound 27 1 b before after
    (f := (c.frame b [.table modules] m).withEnv env₁) (i := i) himporter
    himport (show 1 < maxDepth by decide) (show 0 < maxCrossings by decide)
    (fun j hj => haccepted.ne_import j (by simp [hsplit, hj]))
    (fun j hj => hbound j (hsplit ▸ hmem j hj)) (fun j hj => by rw [hvalue]; exact hbefore j hj)
    hraises (by rw [hvalue, hnil])
  rw [← hsplit] at hmissing
  have hsteps : importSteps (Outline.ofInput input).imports bound =
      13 + (28 + bound + before.length + after.length) := by
    rw [importSteps, hsplit, List.length_append, List.length_cons]
    omega
  rw [hsteps]
  refine hprelude.raises ⟨m₂, fun steps rest => ?_⟩
  rw [show steps + (28 + bound + before.length + after.length) =
    steps + after.length + bound + 28 + before.length by omega]
  exact hmissing _ rest

/-- An import that is not found raises an error: the first such one does. -/
theorem Accepted.fails (haccepted : Accepted input) (c : Chunk) (b : Block) (modules : Nat)
    (hm : Furnished m) {path : String} (hpath : Imports input path)
    (hnil : importValue m modules (Bytes.ofText path) = .nil) :
    Fails (c.frame b [.table modules] m) 1 b (preambleTree (Outline.ofInput input).imports)
      (c.machine b m) := by
  obtain ⟨i, hfirst⟩ : ∃ i, (Outline.ofInput input).imports.find?
      (fun i => (importValue m modules (Bytes.ofText i.2)).isNil) = some i := by
    rw [← Option.isSome_iff_exists, List.find?_isSome]
    refine ⟨(lastSegment path, path), (mem_imports_iff input _).mpr ⟨hpath, rfl⟩, ?_⟩
    rw [hnil]
    rfl
  obtain ⟨hi, before, after, hsplit, hbefore⟩ := List.find?_eq_some_iff_append.mp hfirst
  have hinil : importValue m modules (Bytes.ofText i.2) = .nil := by
    cases hv : importValue m modules (Bytes.ofText i.2) <;> simp_all [Value.isNil]
  obtain ⟨bound, hbound, -⟩ := (Outline.ofInput input).exists_segments_le "" []
  exact (haccepted.raisesIn c b modules hm hbound hsplit
    (fun j hj => by simpa using hbefore j hj) hinil).fails

end Imports

/-! ## Two paths with one last segment -/

/-- An input that imports two functions of one name. -/
def clashing : HandlerInput where
  language := "Lua5.4"
  imports := .ofList ["string.len", "utf8.len"]
  references := .empty
  codeParts := []
  stateType := ⟨"S", "app", []⟩
  parameterName := "p"

/-- A function of a library is found by its path, if no module has the path. -/
theorem importValue_member_of_get {path : String} (library name : String) {m : Machine}
    {modules n : Nat} {entries : List (Value × Value)}
    (hlibraries : Grows Machine.fresh.tables m.tables)
    (hnone : (m.tables.getD modules {}).get (.text path) = .nil)
    (hsegments : segments (Bytes.ofText path) = [Bytes.ofText library, Bytes.ofText name])
    (htable : Table.lookup (.text library) globalEntries = .table n)
    (hn : Machine.fresh.tables[n]? = some { entries }) :
    importValue m modules (Bytes.ofText path) = Table.lookup (.text name) entries := by
  have hnone : (m.tables.getD modules {}).get (.string (Bytes.ofText path)) = .nil := hnone
  have hroot : m.global "_G" = .table globalTable := (global_library hlibraries "_G").trans (by cbv)
  have hlibrary : (m.tables.getD globalTable {}).get (.string (Bytes.ofText library)) = .table n :=
    (global_library hlibraries library).trans htable
  rw [importValue, hnone, hsegments, hroot]
  simp only [Value.isNil, if_true, walk, hlibrary]
  exact get_library hlibraries hn name

/-- A function of a library is found by its path among the first modules. -/
theorem importValue_member (path library name : String) {m : Machine} {modules n : Nat}
    {entries : List (Value × Value)} (hlibraries : Grows Machine.fresh.tables m.tables)
    (hmodules : m.tables[modules]? = some moduleTable)
    (hmodule : Table.lookup (.text path) moduleTable.entries = .nil)
    (hsegments : segments (Bytes.ofText path) = [Bytes.ofText library, Bytes.ofText name])
    (htable : Table.lookup (.text library) globalEntries = .table n)
    (hn : Machine.fresh.tables[n]? = some { entries }) :
    importValue m modules (Bytes.ofText path) = Table.lookup (.text name) entries := by
  refine importValue_member_of_get library name hlibraries ?_ hsegments htable hn
  rw [Array.getD_eq_getD_getElem?, hmodules]
  exact hmodule

/-- The imports of the input in a new machine. -/
theorem importValue_clashing :
    importValue Machine.loaded 6 (Bytes.ofText "string.len") = .builtin (.string .len) ∧
      importValue Machine.loaded 6 (Bytes.ofText "utf8.len") = .builtin (.utf8 .len) ∧
      importValue Machine.loaded 6 (Bytes.ofText "codet") = .table 5 := by
  have hmodules : Machine.loaded.tables[6]? = some moduleTable := rfl
  refine ⟨?_, ?_, ?_⟩
  · rw [importValue_member _ "string" "len" libraries_loaded hmodules
      (by cbv) (by cbv) (by cbv) rfl]
    cbv
  · rw [importValue_member _ "utf8" "len" libraries_loaded hmodules
      (by cbv) (by cbv) (by cbv) rfl]
    cbv
  · exact importValue_standard libraries_loaded hmodules ("codet", "codet") (by decide)

/-- Each of them is found. -/
theorem found_clashing : ∀ path, Imports clashing path →
    (importValue Machine.loaded 6 (Bytes.ofText path)).isNil = false := by
  obtain ⟨hstring, hutf8, hsupport⟩ := importValue_clashing
  have hpaths : clashing.imports.toList = ["string.len", "utf8.len"] := by decide
  rintro path (hpath | rfl)
  · rw [hpaths] at hpath
    simp only [List.mem_cons, List.not_mem_nil, or_false] at hpath
    rcases hpath with rfl | rfl
    · rw [hstring]; rfl
    · rw [hutf8]; rfl
  · exact congrArg Value.isNil hsupport

/-- The greater one of its paths counts. -/
theorem counts_clashing : Counts clashing "utf8.len" := by
  have hpaths : clashing.imports.toList = ["string.len", "utf8.len"] := by decide
  refine ⟨.inl (by simp [hpaths]), ?_⟩
  rintro other (hother | rfl)
  · rw [hpaths] at hother
    simp only [List.mem_cons, List.not_mem_nil, or_false] at hother
    rcases hother with rfl | rfl <;> decide
  · decide

/-- Its names have no line break. -/
theorem isBreak_clashing : ∀ c ∈ clashing.language.toList ++ clashing.stateType.name.toList,
    isBreak c = false := by
  have hnames : clashing.language.toList ++ clashing.stateType.name.toList =
      ['L', 'u', 'a', '5', '.', '4', 'S'] := rfl
  rw [hnames]
  simp [isBreak]

/-- The input is accepted, and its program can be read. -/
theorem generate_clashing : ∃ program, generate clashing = .ok program ∧
    ∃ b, (Chunk.template program).read = .ok b := by
  have hsignature : signature clashing = .ok ⟨["p"], ["__state"]⟩ := by cbv
  have himports : importLines clashing.imports = .ok [importStatement "len" "string.len",
      importStatement "len" "utf8.len", importStatement "codet" "codet"] := by cbv
  let o : Outline := ⟨["p"], [("len", "string.len"), ("len", "utf8.len"), ("codet", "codet")],
    [.state]⟩
  have hprogram : generate clashing = .ok (o.text (header clashing) ([].map Portion.line)) := by
    rw [generate, hsignature, himports]
    rfl
  have hheader : LineReads (header clashing) [] :=
    lineReads_header (fun c hc => isBreak_clashing c (List.mem_append_left _ hc))
      fun c hc => isBreak_clashing c (List.mem_append_right _ hc)
  obtain ⟨s, -, hread⟩ : ∃ s, IsEntry o.arguments s ∧
      (Chunk.template (o.text (header clashing) ([].map Portion.line))).read =
        .ok (preambleTree o.imports ++
          [renderStat (o.parameters.map String.toList) (27 + o.imports.length) [], s]) :=
    Outline.read_text hheader (by decide) (by decide) (by simp [o]) (by simp)
  exact ⟨_, hprogram, _, hread⟩

/-! ## From inputs to programs -/

/-- **The program of an accepted input begins with its imports,** whatever its parts say. -/
theorem Accepted.exists_rest {input : HandlerInput} (haccepted : Accepted input)
    {body : List String} {b : Block}
    (hbreaks : ∀ c ∈ input.language.toList ++ input.stateType.name.toList, isBreak c = false)
    (hread : (Chunk.template ((Outline.ofInput input).text (header input) body)).read = .ok b) :
    ∃ rest, b = preambleTree (Outline.ofInput input).imports ++ rest := by
  have hheader : LineReads (header input) [] :=
    lineReads_header (fun c hc => hbreaks c (List.mem_append_left _ hc))
      fun c hc => hbreaks c (List.mem_append_right _ hc)
  have hne : (Outline.ofInput input).imports ≠ [] := by
    obtain ⟨before, after, himports, -, -⟩ := haccepted.exists_imports
    simp [himports]
  obtain ⟨line, htokens⟩ := Chunk.exists_line_of_read hread
  simp only [Chunk.template] at htokens
  exact Outline.exists_rest hheader haccepted.isIdentifier_import hne htokens

/-- **What a program has bound at the end of its imports.** The program of an accepted input begins
with its imports, whatever its parts say, and a run of it is a run of its statements. With a table
of modules, either each path is found and each path that counts is bound to its last segment, or a
path is not found and the program raises an error. -/
theorem generate_imports {input : HandlerInput} {program : String} {b : Block}
    (hgenerate : generate input = .ok program)
    (hbreaks : ∀ c ∈ input.language.toList ++ input.stateType.name.toList, isBreak c = false)
    (hread : (Chunk.template program).read = .ok b) {m : Machine} (hm : Furnished m)
    (modules : Nat) :
    let preamble := preambleTree (Outline.ofInput input).imports
    let f := (Chunk.template program).frame b [.table modules] m
    let m₀ := (Chunk.template program).machine b m
    (∀ steps, (Chunk.template program).run (steps + 1) b [.table modules] m =
        (executeBlock steps f 1 b b m₀).results) ∧
      (∃ rest, b = preamble ++ rest) ∧
      ((∃ m' env, Comes f 1 b preamble m₀ m' env ∧ Bound input modules m m' env) ∨
        (∃ path, Imports input path ∧ importValue m modules (Bytes.ofText path) = .nil) ∧
          Fails f 1 b preamble m₀) := by
  obtain ⟨haccepted, body, hbody, rfl⟩ := generate_eq_ok_iff.mp hgenerate
  intro preamble f m₀
  refine ⟨fun steps => Chunk.run_succ _ steps b _ m, haccepted.exists_rest hbreaks hread, ?_⟩
  by_cases hfound : ∀ path, Imports input path →
      (importValue m modules (Bytes.ofText path)).isNil = false
  · obtain ⟨bound, hbound, -⟩ := (Outline.ofInput input).exists_segments_le "" []
    obtain ⟨m', env, hcomes, hleft⟩ :=
      haccepted.exists_comesIn (.template _) b modules hm hbound hfound
    exact .inl ⟨m', env, hcomes.comes, hleft⟩
  · push Not at hfound
    obtain ⟨path, hpath, hnil⟩ := hfound
    have hnil : importValue m modules (Bytes.ofText path) = .nil := by
      cases hv : importValue m modules (Bytes.ofText path) <;> simp_all [Value.isNil]
    exact .inr ⟨⟨path, hpath, hnil⟩, haccepted.fails _ b modules hm hpath hnil⟩

/-- Its program has bound the function of the greater path. -/
theorem generate_imports_clashing :
    ∃ program b, generate clashing = .ok program ∧ (Chunk.template program).read = .ok b ∧
      (∀ c ∈ clashing.language.toList ++ clashing.stateType.name.toList, isBreak c = false) ∧
      Furnished Machine.loaded ∧
      ∃ m' env, Comes ((Chunk.template program).frame b [.table 6] Machine.loaded) 1 b
          (preambleTree (Outline.ofInput clashing).imports)
          ((Chunk.template program).machine b Machine.loaded) m' env ∧
        Binds m' env "len".toList (.builtin (.utf8 .len)) := by
  obtain ⟨program, hprogram, b, hread⟩ := generate_clashing
  have hm : Furnished Machine.loaded := .of_libraries libraries_loaded
  refine ⟨program, b, hprogram, hread, isBreak_clashing, hm, ?_⟩
  obtain ⟨-, -, ⟨m', env, hcomes, hbound⟩ | ⟨⟨path, hpath, hnil⟩, -⟩⟩ :=
    generate_imports hprogram isBreak_clashing hread hm 6
  · refine ⟨m', env, hcomes, ?_⟩
    have hlast : lastSegment "utf8.len" = "len" := by decide
    have hkept := hbound.bound _ counts_clashing
    rwa [hlast, importValue_clashing.2.1] at hkept
  · have hfound := found_clashing path hpath
    rw [hnil] at hfound
    cases hfound

/-- **Of two paths with one last segment the first is lost.** The program is accepted and comes to
the end of its imports. The function that finds imports gives the length of a text in bytes for the
first path, but the local of that name is another function. -/
theorem exists_import_overwritten :
    ∃ program b rest, generate clashing = .ok program ∧
      (Chunk.template program).read = .ok b ∧
      b = preambleTree (Outline.ofInput clashing).imports ++ rest ∧
      ∃ m' env, Comes ((Chunk.template program).frame b [.table 6] Machine.loaded) 1 b
          (preambleTree (Outline.ofInput clashing).imports)
          ((Chunk.template program).machine b Machine.loaded) m' env ∧
        (∃ n, Binds m' env "__import".toList (.closure n) ∧
          ∃ k m'', ∀ fuel, call (fuel + k) .start (.closure n) [.text "string.len"] m' =
            .done [.builtin (.string .len)] m'') ∧
        ¬ Binds m' env (lastSegment "string.len").toList (.builtin (.string .len)) := by
  obtain ⟨program, hprogram, b, hread⟩ := generate_clashing
  obtain ⟨haccepted, body, -, rfl⟩ := generate_eq_ok_iff.mp hprogram
  obtain ⟨rest, hrest⟩ := haccepted.exists_rest isBreak_clashing hread
  obtain ⟨bound, hsegments, -⟩ := (Outline.ofInput clashing).exists_segments_le "" []
  obtain ⟨m', env, hcomes, hbound⟩ := haccepted.exists_comesIn (.template _) b 6
    (Furnished.of_libraries libraries_loaded) hsegments found_clashing
  obtain ⟨hstring, hutf8, -⟩ := importValue_clashing
  obtain ⟨n, himport, hreturned⟩ := hbound.returned
  have hfirst : Imports clashing "string.len" := .inl (by decide)
  refine ⟨_, b, rest, hprogram, hread, hrest, m', env, hcomes.comes, ⟨n, himport, ?_⟩,
    fun hlost => ?_⟩
  · rw [← hstring]
    exact (hreturned _ hfirst).2
  · have hkept := hbound.bound _ counts_clashing
    rw [hutf8] at hkept
    obtain ⟨v, hv, hcell⟩ := hlost
    obtain ⟨w, hw, hcell'⟩ := hkept
    obtain rfl : v = w := Option.some.inj (hv.symm.trans hw)
    have hsame : Value.builtin (.string .len) = .builtin (.utf8 .len) :=
      Option.some.inj (hcell.symm.trans hcell')
    cases hsame

end Stencil.Lua
