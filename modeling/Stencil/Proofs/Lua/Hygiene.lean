import Stencil.Proofs.Lua.Separation
set_option autoImplicit false

/-!
# Which names a program binds

A program keeps names for itself: those of its helpers and of the environment, and that of the
support table. Each helper is bound once, by the program itself, and so is the support table, which
every program imports. No parameter and no import is bound to one of these names.

## Main definitions

* `Stencil.Lua.Stat.bound` — the names that statements bind or assign.
* `Stencil.Lua.Outline.tree` — the statements of a program, from those of its parts.
* `Stencil.Lua.Hygienic` — statements that bind each name of the program once.

## Main results

* `Stencil.Lua.Outline.hygienic` — the statements around the parts are such.
* `Stencil.Lua.Outline.exists_begins` — what a program begins with, whatever its parts say.
* `Stencil.Lua.generate_hygienic` — the names of an input, and what becomes of them.
-/

namespace Stencil.Lua

open Juncture (SameBlock SameStat SameExp)
open Reader (Takes)

/-! ## Names that are bound -/

mutual

/-- **The names that an expression binds or assigns,** in the functions inside. -/
def Exp.bound : Exp → List Ident
  | .function params _ body _ => params ++ Stat.bounds body
  | .index _ object key => object.bound ++ key.bound
  | .call _ f args => f.bound ++ Exp.bounds args
  | .method _ object _ args => object.bound ++ Exp.bounds args
  | .unary _ _ e => e.bound
  | .binary _ _ left right => left.bound ++ right.bound
  | .table _ fields => Field.bounds fields
  | .paren e => e.bound
  | .nil | .bool _ | .number _ | .string _ | .varargs _ | .var _ => []

/-- The names that expressions bind. -/
def Exp.bounds : List Exp → List Ident
  | [] => []
  | e :: es => e.bound ++ Exp.bounds es

/-- The names that an item of a table binds. -/
def Field.bound : Field → List Ident
  | .item e => e.bound
  | .entry key value => key.bound ++ value.bound

/-- The names that items of a table bind. -/
def Field.bounds : List Field → List Ident
  | [] => []
  | f :: fs => f.bound ++ Field.bounds fs

/-- **The names that a statement binds or assigns,** at any depth: local variables, functions,
parameters, variables of loops, and targets of assignments. -/
def Stat.bound : Stat → List Ident
  | .declare names values => names.map Prod.fst ++ Exp.bounds values
  | .declareFunction name f => name :: f.bound
  | .assign _ targets values =>
    targets.filterMap (fun | .var name => some name | _ => none) ++ Exp.bounds targets ++
      Exp.bounds values
  | .call e => e.bound
  | .scope body => Stat.bounds body
  | .whileLoop condition body => condition.bound ++ Stat.bounds body
  | .repeatLoop body condition => Stat.bounds body ++ condition.bound
  | .choose condition yes no => condition.bound ++ Stat.bounds yes ++ Stat.bounds no
  | .numericFor _ name start limit step body =>
    name :: (start.bound ++ limit.bound ++ step.bound ++ Stat.bounds body)
  | .genericFor _ names values body => names ++ Exp.bounds values ++ Stat.bounds body
  | .yields values => Exp.bounds values
  | .leave | .jump _ | .label _ _ => []

/-- The names that statements bind. -/
def Stat.bounds : List Stat → List Ident
  | [] => []
  | s :: ss => s.bound ++ Stat.bounds ss

end

/-- The names that a block binds, and those of another one behind it. -/
theorem Stat.bounds_append (b c : Block) : bounds (b ++ c) = bounds b ++ bounds c := by
  induction b with
  | nil => rfl
  | cons s b ih => rw [List.cons_append, bounds, bounds, ih, List.append_assoc]

/-! ## Helpers and the support table -/

/-- Whether a name is one of a helper, or that of the environment. -/
def isHelperName (name : Ident) : Bool := ['_', '_'].isPrefixOf name || name == "_ENV".toList

/-- The names of the helpers. -/
def helperNames : List String :=
  ["__modules", "__concat", "__tostring", "__type", "__gmatch", "__import", "__render", "__out",
   "__write", "__state"]

/-- **Statements that bind each name of the program once.** No helper is bound again, and the
environment never is. The support table is bound to its import, by a statement of the block itself,
and nowhere else. -/
structure Hygienic (b : Block) : Prop where
  helpers : (Stat.bounds b).filter isHelperName = helperNames.map String.toList
  support : ∃ before after line, b = before ++ importStat ("codet", "codet") line :: after ∧
    "codet".toList ∉ Stat.bounds before ∧ "codet".toList ∉ Stat.bounds after

/-- A usable name is none of the program. -/
theorem Usable.not_isHelperName {name : String} (h : Usable name) :
    isHelperName name.toList = false := by
  have hprefix : ['_', '_'].isPrefixOf name.toList = false :=
    Bool.eq_false_iff.mpr fun hp => h.notHelper (List.isPrefixOf_iff_prefix.mp hp)
  have henvironment : name.toList ≠ "_ENV".toList :=
    fun heq => h.notEnvironment (String.toList_inj.mp heq)
  rw [isHelperName, hprefix, Bool.false_or]
  exact beq_false_of_ne henvironment

namespace Outline

/-- The statements before the function that renders. -/
def preamble (o : Outline) : Block :=
  preludeTree ++ [importFunction 27] ++ (o.imports.map fun i => [importStat i 1]).flatten

/-- **The statements of a program,** from those of its parts. -/
def tree (o : Outline) (body : Block) : Block :=
  framed (o.parameters.map String.toList) o.imports body (o.arguments.map Passed.value)

/-- The functions of a program without parts: the one that renders, and the one of the state. -/
def functions (o : Outline) : Block :=
  [.declareFunction "__render".toList (.function (o.parameters.map String.toList) false
    (prologueTree 1 ++ [] ++ [concatStat 0]) 0), entryStat (o.arguments.map Passed.value)]

end Outline

/-- The names that the prelude binds. -/
def preludeNames : List String :=
  ["__modules", "__concat", "__tostring", "__type", "__gmatch", "__import", "path", "module",
   "value", "segment", "value", "value"]

/-- The statements of the prelude bind their names. -/
theorem bounds_prelude :
    Stat.bounds (preludeTree ++ [importFunction 27]) = preludeNames.map String.toList := rfl

/-- The statements of imports bind their locals. -/
theorem bounds_imports (imports : List Import) :
    Stat.bounds (imports.map fun i => [importStat i 1]).flatten =
      imports.map fun i => i.1.toList := by
  induction imports with
  | nil => rfl
  | cons i imports ih =>
    rw [List.map_cons, List.flatten_cons, Stat.bounds_append, ih]
    rfl

/-- The arguments for the parameters bind nothing. -/
theorem bounds_arguments (as : List Passed) : Exp.bounds (as.map Passed.value) = [] := by
  induction as with
  | nil => rfl
  | cons a as ih =>
    rw [List.map_cons, Exp.bounds, ih]
    cases a <;> rfl

/-- The functions of a program without parts bind the parameters, and the names of helpers. -/
theorem bounds_functions (o : Outline) :
    Stat.bounds o.functions = "__render".toList :: (o.parameters.map String.toList ++
      ["__out", "__write", "value", "__state"].map String.toList) := by
  have hbody : Stat.bounds (prologueTree 1 ++ [] ++ [concatStat 0]) =
      ["__out", "__write", "value"].map String.toList := rfl
  have hentry : (entryStat (o.arguments.map Passed.value)).bound = ["__state".toList] := by
    have hargs := bounds_arguments o.arguments
    simp [entryStat, Stat.bounds, Stat.bound, Exp.bounds, Exp.bound, hargs]
  rw [Outline.functions, Stat.bounds, Stat.bounds, Stat.bounds, Stat.bound, Exp.bound, hbody,
    hentry]
  simp

/-! ## Imports of the support table -/

/-- Whether a name is a member of a set. -/
theorem contains_iff_mem_toList (names : NameSet) (name : String) :
    names.contains name = true ↔ name ∈ names.toList :=
  (names.mem_keys_iff name).symm

/-- **The support table is imported once,** whether or not it is among the imports of the input. -/
theorem Accepted.exists_imports {input : HandlerInput} (h : Accepted input) :
    ∃ before after, (Outline.ofInput input).imports = before ++ ("codet", "codet") :: after ∧
      (∀ i ∈ before, Usable i.1) ∧ ∀ i ∈ after, Usable i.1 := by
  have husable {path : String} (hpath : path ∈ input.imports.toList) (hne : path ≠ "codet") :
      Usable (lastSegment path) :=
    ((importable_iff path).mp (h.imports path hpath)).resolve_left hne
  have hall {paths : List String} (hpaths : ∀ path ∈ paths, path ∈ input.imports.toList ∧
      path ≠ "codet") : ∀ i ∈ paths.map (fun path => (lastSegment path, path)), Usable i.1 := by
    intro i hi
    obtain ⟨path, hpath, rfl⟩ := List.mem_map.mp hi
    exact husable (hpaths path hpath).1 (hpaths path hpath).2
  have hcontains := contains_iff_mem_toList input.imports supportName
  by_cases hmem : "codet" ∈ input.imports.toList
  · obtain ⟨before, after, hlist⟩ := List.append_of_mem hmem
    -- The members ascend, so the support table is no other one of them.
    have hascending : (before ++ "codet" :: after).Pairwise (· < ·) := by
      rw [← hlist]
      exact input.imports.ascending
    have hbefore : ∀ path ∈ before, path ≠ "codet" := by
      rintro _ hpath rfl
      exact String.lt_irrefl _ ((List.pairwise_append.mp hascending).2.2 _ hpath _ (by simp))
    have hafter : ∀ path ∈ after, path ≠ "codet" := by
      rintro _ hpath rfl
      have htail := (List.pairwise_append.mp hascending).2.1
      exact String.lt_irrefl _ ((List.pairwise_cons.mp htail).1 _ hpath)
    refine ⟨before.map fun path => (lastSegment path, path),
      after.map fun path => (lastSegment path, path), ?_, ?_, ?_⟩
    · rw [Outline.ofInput, if_pos (hcontains.mpr hmem), List.append_nil, hlist, List.map_append,
        List.map_cons]
      rfl
    · exact hall fun path hpath => ⟨by simp [hlist, hpath], hbefore path hpath⟩
    · exact hall fun path hpath => ⟨by simp [hlist, hpath], hafter path hpath⟩
  · refine ⟨input.imports.toList.map fun path => (lastSegment path, path), [], ?_, ?_, by simp⟩
    · rw [Outline.ofInput, if_neg fun h => hmem (hcontains.mp h)]
      rfl
    · exact hall fun path hpath => ⟨hpath, fun heq => hmem (heq ▸ hpath)⟩

/-- **The statements around the parts** of an accepted input bind each name of the program once. -/
theorem Accepted.hygienic {input : HandlerInput} (h : Accepted input) :
    Hygienic ((Outline.ofInput input).tree []) := by
  obtain ⟨before, after, himports, hbefore, hafter⟩ := h.exists_imports
  have hnames {is : List Import} (his : ∀ i ∈ is, Usable i.1) :
      ∀ n ∈ is.map (fun i => i.1.toList), isHelperName n = false ∧ n ≠ "codet".toList := by
    intro n hn
    obtain ⟨i, hi, rfl⟩ := List.mem_map.mp hn
    exact ⟨(his i hi).not_isHelperName,
      fun heq => (his i hi).notSupport (String.toList_inj.mp heq)⟩
  have hparameters : ∀ n ∈ (Outline.ofInput input).parameters.map String.toList,
      isHelperName n = false ∧ n ≠ "codet".toList := by
    intro n hn
    obtain ⟨p, hp, rfl⟩ := List.mem_map.mp hn
    have husable := h.parameters p hp
    exact ⟨husable.not_isHelperName, fun heq => husable.notSupport (String.toList_inj.mp heq)⟩
  have hnone {names : List Ident} (hall : ∀ n ∈ names, isHelperName n = false ∧
      n ≠ "codet".toList) : names.filter isHelperName = [] :=
    List.filter_eq_nil_iff.mpr fun n hn => by simp [(hall n hn).1]
  have htree : (Outline.ofInput input).tree [] = preludeTree ++ [importFunction 27] ++
      (before.map fun i => [importStat i 1]).flatten ++ importStat ("codet", "codet") 1 ::
        ((after.map fun i => [importStat i 1]).flatten ++ (Outline.ofInput input).functions) := by
    simp [Outline.tree, framed, Outline.functions, himports]
  refine ⟨?_, ⟨_, _, 1, htree, ?_, ?_⟩⟩
  · have himport : (importStat ("codet", "codet") 1).bound = ["codet".toList] := rfl
    rw [htree, Stat.bounds_append, Stat.bounds_append, bounds_prelude, bounds_imports, Stat.bounds,
      Stat.bounds_append, bounds_imports, bounds_functions, himport]
    simp only [List.filter_append, List.filter_cons, hnone (hnames hbefore),
      hnone (hnames hafter), hnone hparameters]
    rfl
  · rw [Stat.bounds_append, bounds_prelude, bounds_imports, List.mem_append, not_or]
    exact ⟨by decide, fun hmem => (hnames hbefore _ hmem).2 rfl⟩
  · rw [Stat.bounds_append, bounds_imports, bounds_functions, List.mem_append, not_or]
    refine ⟨fun hmem => (hnames hafter _ hmem).2 rfl, ?_⟩
    rw [List.mem_cons, List.mem_append, not_or, not_or]
    exact ⟨by decide, fun hmem => (hparameters _ hmem).2 rfl, by decide⟩

/-! ## What a program begins with -/

namespace Outline

variable {o : Outline}

/-- The statements before the function that renders, whatever is read behind them. -/
theorem starts_preamble (o : Outline) :
    Reader.Starts (preludeTokens.flatten ++ (o.imports.map fun i => importTokens i.1 i.2).flatten)
      o.preamble := by
  have hprelude := alone_preludeTree.starts.append alone_importFunction.starts
  rw [← List.flatten_append, List.take_append_drop] at hprelude
  refine hprelude.append (Reader.Starts.flatten ?_)
  rw [List.forall₂_map_left_iff, List.forall₂_map_right_iff, List.forall₂_same]
  exact fun i _ => (alone_import i).starts

/-- The tokens of a program, whatever the lines of its parts are. -/
theorem exists_kinds_text {first : String} {body : List String} (hfirst : LineReads first [])
    (hparameters : ∀ p ∈ o.parameters, isIdentifier p = true)
    (himports : ∀ i ∈ o.imports, isIdentifier i.1 = true)
    (hbody : ∀ l ∈ body, l.toList.head? ≠ some '\r') :
    ∃ more, kinds (tokenize (o.text first body).toList) = o.openingTokens ++ more := by
  obtain ⟨tss, htss, hopening⟩ := spells_opening hparameters himports
  have htail : (lines (body ++ endLines (o.arguments.map Passed.text))).toList.head? ≠
      some '\r' := by
    have hheads : ∀ l ∈ body ++ endLines (o.arguments.map Passed.text),
        l.toList.head? ≠ some '\r' := by
      intro l hl
      rcases List.mem_append.mp hl with hl | hl
      · exact hbody l hl
      · simp only [endLines, List.mem_cons, List.not_mem_nil, or_false] at hl
        rcases hl with rfl | rfl | rfl | rfl | rfl | rfl <;> simp
    have hnil : ([] : List Char).head? ≠ some '\r' := by simp
    have hlines := head?_lines_append hheads hnil
    rwa [List.append_nil] at hlines
  have htext : (o.text first body).toList = (lines (first :: o.opening)).toList ++
      (lines (body ++ endLines (o.arguments.map Passed.text))).toList := by
    rw [text, toList_lines, toList_lines, toList_lines, ← List.flatMap_append]
    simp
  have hspells : List.Forall₂ Spells (first :: o.opening) ([] :: tss) := .cons hfirst.spells htss
  obtain ⟨next, hnext⟩ := kinds_lex_lines_append hspells htail 1
  exact ⟨_, by rw [tokenize_eq_lex, htext, hnext, List.flatten_cons, List.nil_append, hopening]⟩

/-- What is read of tokens that begin with those before the parts. -/
theorem exists_begins_of_kinds {tokens : List Located} {more : List Token}
    (hkinds : kinds tokens = o.openingTokens ++ more) {b : Block} {line : Nat}
    (h : Block.ofTokens tokens = .ok (b, line)) :
    ∃ inside rest, SameBlock (o.preamble ++ .declareFunction "__render".toList
      (.function (o.parameters.map String.toList) false inside 0) :: rest) b := by
  obtain ⟨-, p, hblock, -, -⟩ := Block.ofTokens_eq_ok_iff.mp h
  have hbehind : o.openingTokens ++ more =
      preludeTokens.flatten ++ (o.imports.map fun i => importTokens i.1 i.2).flatten ++
        .keyword .«local» :: .keyword .function :: .name "__render".toList :: .symbol .leftParen ::
          (commas ((o.parameters.map String.toList).map fun p => [.name p]) ++
            .symbol .rightParen :: (prologueTokens.flatten ++ more)) := by
    rw [openingTokens, List.append_assoc _ _ more, List.append_assoc _ _ more, openTokens_append]
  rw [hbehind] at hkinds
  -- The reader has fuel for all the tokens.
  have hlength : tokens.length = _ := (List.length_map _).symm.trans (congrArg List.length hkinds)
  have hps := length_le_length_commas ((o.parameters.map String.toList).map fun p => [.name p])
    (by simp)
  simp only [List.length_append, List.length_cons] at hlength
  rw [List.length_map] at hps
  obtain ⟨b', c, n, q, hbc, hb', hn, hq, hc⟩ :=
    o.starts_preamble.starts (.keyword .«local») _ _ ⟨1, tokens⟩ _ _ rfl (by
      rw [Reader.depth, hlength, List.length_append]
      omega) hkinds hblock
  rw [Reader.depth, hlength, List.length_append] at hn
  obtain ⟨k, rfl⟩ : ∃ k, n = k + 3 := ⟨n - 3, by omega⟩
  rcases Reader.block_cases hc with ⟨hends, -⟩ | ⟨htoken, -⟩ | ⟨-, s, p₁, c₁, hs, -, hcs⟩
  · rw [Reader.tokenAt_of_kinds hq] at hends
    cases hends
  · rw [Reader.tokenAt_of_kinds hq] at htoken
    cases htoken
  · obtain ⟨inside, line, rfl⟩ :=
      Reader.exists_of_local_function (by omega) (by simp [prologueTokens]) hq hs
    refine ⟨inside, c₁, ?_⟩
    simp only [SameBlock] at hb' ⊢
    rw [hbc, hcs, List.map_append, List.map_append, hb']
    rfl

/-- **What a program begins with,** whatever its parts say: the prelude, the imports, and the
function that renders with its parameters. -/
theorem exists_begins {first : String} {body : List String} (hfirst : LineReads first [])
    (hparameters : ∀ p ∈ o.parameters, isIdentifier p = true)
    (himports : ∀ i ∈ o.imports, isIdentifier i.1 = true)
    (hbody : ∀ l ∈ body, l.toList.head? ≠ some '\r') {b : Block} {line : Nat}
    (h : Block.ofTokens (tokenize (o.text first body).toList) = .ok (b, line)) :
    ∃ inside rest, SameBlock (o.preamble ++ .declareFunction "__render".toList
      (.function (o.parameters.map String.toList) false inside 0) :: rest) b := by
  obtain ⟨more, hkinds⟩ := exists_kinds_text hfirst hparameters himports hbody
  exact exists_begins_of_kinds hkinds h

end Outline

/-- The text that a program has around its parts is read as the statements around them. -/
theorem Accepted.exists_own {input : HandlerInput} (h : Accepted input) :
    ∃ b line, Block.ofTokens (tokenize ((Outline.ofInput input).text "" []).toList) =
      .ok (b, line) ∧ SameBlock ((Outline.ofInput input).tree []) b := by
  have hparameters : ∀ p ∈ (Outline.ofInput input).parameters, isIdentifier p = true :=
    fun p hp => (h.parameters p hp).isIdentifier
  have hkinds := kinds_program lineReads_empty hparameters h.isIdentifier_import .nil
  have hreads := reads_framed (Outline.ofInput input).parameters (Outline.ofInput input).imports
    (Outline.ofInput input).arguments Reader.Prepends.nil
  simp only [Outline.openingTokens, List.append_assoc, List.flatten_nil, List.nil_append]
    at hkinds hreads
  rw [← hkinds] at hreads
  exact hreads.ofTokens (by rw [hkinds]; simp [preludeTokens])

/-! ## From inputs to programs -/

/-- **A program that keeps the names of its input apart from its own.** The text around the lines of
the parts binds each of the program's own names once, and the support table once, by an import of
its own. When the first line is a comment, the program begins with the imports and with the
parameters of the input, whatever the parts say. -/
structure Separates (input : HandlerInput) (program : String) : Prop where
  hygienic : Hygienic ((Outline.ofInput input).tree [])
  own : ∃ b line, Block.ofTokens (tokenize ((Outline.ofInput input).text "" []).toList) =
    .ok (b, line) ∧ SameBlock ((Outline.ofInput input).tree []) b
  text : ∃ body, program = (Outline.ofInput input).text (header input) body ∧
    List.Forall₂ (fun part l => partStatement part = .ok (some l)) input.codeParts body
  begins : (∀ c ∈ input.language.toList ++ input.stateType.name.toList, isBreak c = false) →
    ∀ b line, Block.ofTokens (tokenize program.toList) = .ok (b, line) →
      ∃ inside rest, SameBlock ((Outline.ofInput input).preamble ++
        .declareFunction "__render".toList (.function
          ((Outline.ofInput input).parameters.map String.toList) false inside 0) :: rest) b

/-- **The names of an input, and what becomes of them.** There is no program exactly if a name is
not usable, and the error is that of the first such name. Otherwise the names of the input are kept
apart from those of the program. -/
theorem generate_hygienic {config : Template.ParserConfig} {source : String}
    {unit : Template.CompilationUnit} {input : HandlerInput}
    (hparse : Template.parse config source = .ok unit) (hcode : input.codeParts = unit.codeParts) :
    (∀ e, generate input = .error e ↔ Refused input e) ∧
      ∀ program, generate input = .ok program → Separates input program := by
  have hkind : ∀ part ∈ input.codeParts, Template.IsLiteral part.toList ∨
      Template.IsBlock part.toList :=
    fun _ hp => Template.isLiteral_or_isBlock_of_mem_codeParts hparse (hcode ▸ hp)
  have hclass : ∀ part ∈ input.codeParts, Template.classify part.toList ≠ some .configuration :=
    fun _ hp => Template.classify_ne_of_mem_codeParts hparse (hcode ▸ hp)
  refine ⟨generate_eq_error_iff hkind hclass, fun program hgenerate => ?_⟩
  obtain ⟨haccepted, body, hbody, rfl⟩ := generate_eq_ok_iff.mp hgenerate
  obtain ⟨body', hbody', hlines, hblank⟩ := exists_bodyLines hkind hclass
  obtain rfl : body' = body := Except.ok.inj (hbody'.symm.trans hbody)
  refine ⟨haccepted.hygienic, haccepted.exists_own, ⟨_, rfl, hlines⟩, ?_⟩
  intro hbreaks b line hread
  have hparameters : ∀ p ∈ (Outline.ofInput input).parameters, isIdentifier p = true :=
    fun p hp => (haccepted.parameters p hp).isIdentifier
  have hheader : LineReads (header input) [] :=
    lineReads_header (fun c hc => hbreaks c (List.mem_append_left _ hc))
      fun c hc => hbreaks c (List.mem_append_right _ hc)
  exact Outline.exists_begins hheader hparameters haccepted.isIdentifier_import
    (fun l hl => by simp [hblank l hl]) hread

/-- A literal, a parameter for each of two properties, and an import that is not the support
table. -/
def titled : HandlerInput where
  language := "Lua5.4"
  imports := .ofList ["string.format"]
  references := .empty
  codeParts := ["a"]
  stateType := ⟨"S", "app", ["title", "_count"]⟩
  parameterName := ""

/-- Its names are kept apart, and with a property that is a word of the language there is no
program. -/
theorem generate_hygienic_titled :
    (∃ program, generate titled = .ok program ∧ Separates titled program) ∧
      generate { titled with stateType := ⟨"S", "app", ["title", "end"]⟩ } =
        .error (.invalidArgument "state_type"
          "property 'end' of S is not a usable Lua identifier") := by
  have hsplit : Template.split "a" = .ok [⟨"a", none, 0, 1⟩] := by cbv
  obtain ⟨unit, hunit, hparts, -⟩ := Template.parse_of_split {} hsplit (by decide)
  refine ⟨?_, ?_⟩
  · obtain ⟨program, hprogram⟩ : ∃ program, generate titled = .ok program := by
      have hsignature : signature titled = .ok ⟨["title", "_count"],
          ["__state[\"title\"]", "__state[\"_count\"]"]⟩ := by cbv
      have himports : importLines titled.imports = .ok [importStatement "format" "string.format",
          importStatement "codet" "codet"] := by cbv
      have hbody : bodyLines titled.codeParts = .ok ["  __write(\"a\")"] := by cbv
      rw [generate, hsignature, himports, hbody]
      exact ⟨_, rfl⟩
    exact ⟨program, hprogram, (generate_hygienic hunit hparts.symm).2 program hprogram⟩
  · have hrefused : Refused { titled with stateType := ⟨"S", "app", ["title", "end"]⟩ } _ :=
      .property rfl ["title"] "end" [] rfl (by decide) (by decide)
    have hmessage : "property '" ++ "end" ++ "' of " ++ "S" ++ " is not a usable Lua identifier" =
        "property 'end' of S is not a usable Lua identifier" := by decide
    rw [← hmessage]
    exact ((generate_hygienic hunit hparts.symm).1 _).mpr hrefused

end Stencil.Lua
