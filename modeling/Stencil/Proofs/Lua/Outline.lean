import Stencil.Lua.Chunk
import Stencil.Proofs.Lua.Framing
set_option autoImplicit false

/-!
# Reading a program

A program has lines of its own around those of the parts of its template. When each part is a
portion, the text of the program is read as its statements, and these keep the rules on names.

## Main definitions

* `Stencil.Lua.Outline` — what a program has around the statements of its parts.
* `Stencil.Lua.IsEntry` — the statement that gives the function of the state.

## Main results

* `Stencil.Lua.Outline.lineReads_text` — the tokens of each line of a program.
* `Stencil.Lua.Outline.read_text` — the statements of a program for portions.
-/

namespace Stencil.Lua

open Juncture (SameBlock SameExp)

/-! ## What a program has around its parts -/

/-- **What a program has around the statements of its parts:** the parameters of the function that
renders, the locals for the imports, and the arguments for the parameters. -/
structure Outline where
  parameters : List String
  imports : List Import
  arguments : List Passed

namespace Outline

/-- The lines before the statements of the parts. -/
def opening (o : Outline) : List String :=
  prelude ++ o.imports.map (fun i => importStatement i.1 i.2) ++ [""] ++
    ["local function __render(" ++ ", ".intercalate o.parameters ++ ")"] ++ renderPrologue

/-- **The text of a program:** a first line, and the lines of the parts inside the outline. -/
def text (o : Outline) (first : String) (body : List String) : String :=
  lines ([first] ++ o.opening ++ body ++ endLines (o.arguments.map Passed.text))

end Outline

/-! ## The function of the state -/

/-- **The expression of an argument,** at some line. -/
def Passed.Stands (a : Passed) (x : Exp) : Prop :=
  match a with
  | state => x = .var "__state".toList
  | property name => ∃ n, x = .index n (.var "__state".toList) (.string (Bytes.ofText name))

/-- An expression that is the same without its lines stands for the argument. -/
theorem Passed.stands_of_same {a : Passed} {x : Exp} (h : SameExp a.value x) : a.Stands x := by
  unfold SameExp at h
  cases a with
  | state =>
    cases x with
    | var name => exact h.symm
    | _ => simp [value, Exp.shape] at h
  | property name =>
    cases x with
    | index n object key =>
      simp only [value, Exp.shape, Exp.index.injEq, true_and] at h
      obtain ⟨hobject, hkey⟩ := h
      obtain rfl : object = .var "__state".toList := by
        cases object with
        | var name => exact hobject.symm
        | _ => simp [Exp.shape] at hobject
      obtain rfl : key = .string (Bytes.ofText name) := by
        cases key with
        | string b => exact hkey.symm
        | _ => simp [Exp.shape] at hkey
      exact ⟨n, rfl⟩
    | _ => simp [value, Exp.shape] at h

/-- Expressions that are the same without their lines stand for the arguments. -/
theorem Passed.forall₂_stands {as : List Passed} {xs : List Exp}
    (h : (as.map Passed.value).map Exp.shape = xs.map Exp.shape) :
    List.Forall₂ Passed.Stands as xs := by
  induction as generalizing xs with
  | nil =>
    obtain rfl : xs = [] := by simpa using h.symm
    exact .nil
  | cons a as ih =>
    cases xs with
    | nil => simp at h
    | cons x xs =>
      obtain ⟨hx, hxs⟩ := List.cons.inj h
      exact .cons (stands_of_same hx) (ih hxs)

/-- **The statement that gives the function of the state,** which calls the one that renders. -/
def IsEntry (as : List Passed) (s : Stat) : Prop :=
  ∃ xs n e, s = .yields [.function ["__state".toList] false
      [.yields [.call n (.var "__render".toList) xs]] e] ∧ List.Forall₂ Passed.Stands as xs

/-- A block with one statement and a given shape. -/
theorem exists_of_sameBlock_singleton {s : Stat} {b : Block} (h : SameBlock [s] b) :
    ∃ t, b = [t] ∧ s.shape = t.shape := by
  rcases b with _ | ⟨t, _ | ⟨u, rest⟩⟩
  · simp [SameBlock] at h
  · exact ⟨t, rfl, by simpa [SameBlock] using h⟩
  · simp [SameBlock] at h

/-- A `return` of one value with a given shape. -/
theorem exists_of_yields_shape {x : Exp} {t : Stat}
    (h : (Stat.yields [x]).shape = t.shape) : ∃ y, t = .yields [y] ∧ x.shape = y.shape := by
  cases t with
  | yields values =>
    simp only [Stat.shape, Exp.shapes_eq_map, Stat.yields.injEq] at h
    rcases values with _ | ⟨y, _ | ⟨z, rest⟩⟩
    · simp at h
    · exact ⟨y, rfl, by simpa using h⟩
    · simp at h
  | _ => simp [Stat.shape] at h

/-- A declaration of a function with a given shape. -/
theorem exists_of_declareFunction_shape {name : Ident} {params : List Ident} {variadic : Bool}
    {body : Block} {n : Nat} {t : Stat}
    (h : (Stat.declareFunction name (.function params variadic body n)).shape = t.shape) :
    ∃ body' n', t = .declareFunction name (.function params variadic body' n') := by
  cases t with
  | declareFunction name' e =>
    cases e with
    | function params' variadic' body' n' =>
      simp only [Stat.shape, Exp.shape, Stat.declareFunction.injEq, Exp.function.injEq] at h
      obtain ⟨rfl, rfl, rfl, -⟩ := h
      exact ⟨body', n', rfl⟩
    | _ => simp [Stat.shape, Exp.shape] at h
  | _ => simp [Stat.shape] at h

/-- **What is the function of the state but for its lines** gives it. -/
theorem exists_isEntry {as : List Passed} {b : Block}
    (h : SameBlock [entryStat (as.map Passed.value)] b) : ∃ s, b = [s] ∧ IsEntry as s := by
  obtain ⟨s, rfl, hs⟩ := exists_of_sameBlock_singleton h
  obtain ⟨f, rfl, hf⟩ := exists_of_yields_shape hs
  refine ⟨_, rfl, ?_⟩
  cases f with
  | function params variadic body e =>
    simp only [Exp.shape, Stat.shapes_eq_map, Exp.function.injEq, and_true] at hf
    obtain ⟨rfl, rfl, hbody⟩ := hf
    obtain ⟨t, rfl, ht⟩ := exists_of_sameBlock_singleton hbody
    obtain ⟨c, rfl, hc⟩ := exists_of_yields_shape ht
    cases c with
    | call n g xs =>
      simp only [Exp.shape, Exp.shapes_eq_map, Exp.call.injEq, true_and] at hc
      obtain ⟨hg, hxs⟩ := hc
      obtain rfl : g = .var "__render".toList := by
        cases g with
        | var name => exact hg.symm
        | _ => simp [Exp.shape] at hg
      exact ⟨xs, n, e, rfl, Passed.forall₂_stands hxs⟩
    | _ => simp [Exp.shape] at hc
  | _ => simp [Exp.shape] at hf

namespace Scope

/-- A `return` keeps the rules on names if its values do. -/
theorem checkBlock_yields {s : Scope} {before : List Ident} {values : List Exp}
    (h : ∀ s : Scope, s.checkExps values = .ok ()) :
    s.checkBlock before [.yields values] = .ok () := by
  have hstep : s.checkBlock before [.yields values] =
      (checkExps { s with
        labels := before ++ labelsAhead false [] ++ s.labels
        taken := before ++ s.taken } values).bind fun _ => .ok () := rfl
  rw [hstep, h]
  rfl

/-- The arguments for the function that renders keep the rules on names. -/
theorem checkExps_stands {s : Scope} {as : List Passed} {xs : List Exp}
    (h : List.Forall₂ Passed.Stands as xs) : s.checkExps xs = .ok () := by
  induction h with
  | nil => rfl
  | @cons a x as xs hx _ ih =>
    have hstep : s.checkExps (x :: xs) = (s.checkExp x).bind fun _ => s.checkExps xs := rfl
    have hfirst : s.checkExp x = .ok () := by
      cases a with
      | state =>
        obtain rfl := hx
        rfl
      | property name =>
        obtain ⟨n, rfl⟩ := hx
        rfl
    rw [hstep, hfirst]
    exact ih

/-- The function of the state keeps the rules on names. -/
theorem checkBlock_isEntry {s : Scope} {as : List Passed} {t : Stat} (h : IsEntry as t) :
    s.checkBlock [] [t] = .ok () := by
  obtain ⟨xs, n, e, rfl, hxs⟩ := h
  have hcall (s : Scope) : s.checkBlock [] [.yields [.call n (.var "__render".toList) xs]] =
      .ok () := by
    refine checkBlock_yields fun s => ?_
    have hstep : s.checkExps [.call n (.var "__render".toList) xs] =
        (s.checkExps xs).bind fun _ => .ok () := rfl
    rw [hstep, checkExps_stands hxs]
    rfl
  refine checkBlock_yields fun s => ?_
  have hstep : s.checkExps [.function ["__state".toList] false
      [.yields [.call n (.var "__render".toList) xs]] e] =
    (checkBlock (s.enter ["__state".toList] false e) []
      [.yields [.call n (.var "__render".toList) xs]]).bind fun _ => .ok () := rfl
  rw [hstep, hcall]
  rfl

end Scope

namespace Outline

variable {o : Outline}

/-! ## The text of a program -/

/-- The tokens of a program, line by line. -/
def tokens (o : Outline) (portions : List Portion) : List (List Token) :=
  [[]] ++ preludeTokens ++ o.imports.map (fun i => importTokens i.1 i.2) ++
    ([[], openTokens o.parameters] ++ (prologueTokens ++ portions.map Portion.tokens) ++
      endTokens o.arguments)

/-- **The lines of a program** have its tokens. -/
theorem lineReads_text {first : String} {portions : List Portion} (hfirst : LineReads first [])
    (hparameters : ∀ p ∈ o.parameters, isIdentifier p = true)
    (himports : ∀ i ∈ o.imports, isIdentifier i.1 = true)
    (hnames : ∀ p ∈ portions, ∀ name ∈ p.names, isIdentifier name = true) :
    List.Forall₂ LineReads ([first] ++ o.opening ++ portions.map Portion.line ++
      endLines (o.arguments.map Passed.text)) (o.tokens portions) := by
  have himport : List.Forall₂ LineReads (o.imports.map fun i => importStatement i.1 i.2)
      (o.imports.map fun i => importTokens i.1 i.2) := by
    rw [List.forall₂_map_left_iff, List.forall₂_map_right_iff, List.forall₂_same]
    exact fun i hi => lineReads_import (himports i hi) i.2
  have hportions : List.Forall₂ LineReads (portions.map Portion.line)
      (portions.map Portion.tokens) := by
    rw [List.forall₂_map_left_iff, List.forall₂_map_right_iff, List.forall₂_same]
    exact fun p hp => Portion.lineReads (hnames p hp)
  have hopen : List.Forall₂ LineReads
      ["", "local function __render(" ++ ", ".intercalate o.parameters ++ ")"]
      [[], openTokens o.parameters] :=
    .cons lineReads_empty (.cons (lineReads_open hparameters) .nil)
  have hall := List.rel_append (List.rel_append (List.rel_append (.cons hfirst .nil)
    lineReads_prelude) himport) (List.rel_append (List.rel_append hopen
      (List.rel_append lineReads_prologue hportions)) (lineReads_end o.arguments))
  simpa only [tokens, opening, List.append_assoc, List.cons_append, List.nil_append] using hall

/-- The tokens of a program, each with its line. -/
theorem locate_tokens (o : Outline) (portions : List Portion) :
    locate 1 (o.tokens portions) =
      locate 2 preludeTokens ++ (locate 27 (o.imports.map fun i => importTokens i.1 i.2) ++
        (locate (27 + o.imports.length) ([[], openTokens o.parameters] ++
            (prologueTokens ++ portions.map Portion.tokens) ++
              [concatTokens, [.keyword .«end»]]) ++
          locate (27 + o.imports.length + 8 + portions.length + 2)
            ((endTokens o.arguments).drop 2))) := by
  have hprelude : preludeTokens.length = 25 := rfl
  have hprologue : prologueTokens.length = 6 := rfl
  have hend : endTokens o.arguments =
      [concatTokens, [.keyword .«end»]] ++ (endTokens o.arguments).drop 2 := rfl
  rw [tokens, hend]
  simp only [List.append_assoc, locate_append, List.length_map, List.length_cons,
    List.length_nil, hprelude, hprologue]
  rfl

/-- **The reader has fuel for a program:** the grammar does not nest more deeply than there are
tokens, and each parameter, each portion and each import has one of its own. -/
theorem exists_depth_eq (o : Outline) (portions : List Portion) {n : Nat}
    {entry tokens : List Located} (hentry : entry.length = (entryTokens o.arguments).length + 1)
    (htokens : tokens = locate 2 preludeTokens ++
      (locate 27 (o.imports.map fun i => importTokens i.1 i.2) ++
        (locate n ([[], openTokens o.parameters] ++
          (prologueTokens ++ portions.map Portion.tokens) ++ [concatTokens, [.keyword .«end»]]) ++
            entry))) :
    ∃ fuel, Reader.depth tokens =
        fuel + o.parameters.length + portions.length + 60 + o.imports.length + 6 ∧
      16 * ((entryTokens o.arguments).length + 1) ≤ fuel := by
  have himports := length_le_length_flatten (fun i : Import => importTokens i.1 i.2) o.imports
    (by simp [importTokens])
  have hportions := length_le_length_flatten Portion.tokens portions (by
    intro p hp
    obtain ⟨ts, hts⟩ := exists_tokens_portion p
    rw [hts] at hp
    cases hp)
  have hparameters := length_le_length_commas (o.parameters.map fun p => [.name p.toList]) (by simp)
  have hprelude : 34 ≤ preludeTokens.flatten.length := by decide
  rw [List.length_map] at hparameters
  refine ⟨Reader.depth tokens -
    (o.parameters.length + portions.length + 60 + o.imports.length + 6), ?_⟩
  rw [htokens]
  simp only [Reader.depth, List.length_append, length_locate, List.flatten_append,
    List.flatten_cons, hentry, openTokens]
  omega

/-- **The statements of a program for portions.**

**Proof sketch.** The tokens of the program are those of its lines. They begin with the prelude, and
behind each import comes another one or the function that renders; the function of the state is
read behind it. -/
theorem exists_ofTokens {first : String} {portions : List Portion} (hfirst : LineReads first [])
    (hparameters : ∀ p ∈ o.parameters, isIdentifier p = true)
    (himports : ∀ i ∈ o.imports, isIdentifier i.1 = true) (hne : o.imports ≠ [])
    (hnames : ∀ p ∈ portions, ∀ name ∈ p.names, isIdentifier name = true) :
    ∃ s line, IsEntry o.arguments s ∧
      Block.ofTokens (tokenize (o.text first (portions.map Portion.line)).toList) =
        .ok (preambleTree o.imports ++
          [renderStat (o.parameters.map String.toList) (27 + o.imports.length) portions, s],
          line) := by
  let n := 27 + o.imports.length
  obtain ⟨last, htokens⟩ : ∃ last,
      tokenize (o.text first (portions.map Portion.line)).toList =
        locate 1 (o.tokens portions) ++ [⟨.finish, last⟩] := by
    have hlines := lex_lines (lineReads_text hfirst hparameters himports hnames) 1
    exact ⟨_, by rw [tokenize_eq_lex, text]; exact hlines⟩
  let entry : List Located :=
    locate (n + 8 + portions.length + 2) ((endTokens o.arguments).drop 2) ++ [⟨.finish, last⟩]
  let render : List Located := locate n ([[], openTokens o.parameters] ++
    (prologueTokens ++ portions.map Portion.tokens) ++ [concatTokens, [.keyword .«end»]]) ++ entry
  have hsplit : tokenize (o.text first (portions.map Portion.line)).toList =
      locate 2 preludeTokens ++
        (locate 27 (o.imports.map fun i => importTokens i.1 i.2) ++ render) := by
    rw [htokens, locate_tokens]
    simp only [List.append_assoc, render, entry, n]
  -- The reader has fuel for all the tokens.
  have hkinds : kinds entry = entryTokens o.arguments ++ [.finish] := by
    rw [kinds_append, kinds_locate]
    simp [endTokens, entryTokens, kinds]
  have hentry : entry.length = (entryTokens o.arguments).length + 1 := by
    have heq := congrArg List.length hkinds
    simpa [kinds] using heq
  obtain ⟨fuel, hfuel, hlarge⟩ := exists_depth_eq o portions hentry hsplit
  -- One statement behind the other.
  have hfirst : ∃ more, locate 27 (o.imports.map fun i => importTokens i.1 i.2) ++ render =
      ⟨.keyword .«local», 27⟩ :: more := by
    obtain ⟨i, more, hi⟩ := List.exists_cons_of_ne_nil hne
    rw [hi]
    exact ⟨_, rfl⟩
  have hprelude := block_prelude_eq
    (fuel + o.parameters.length + portions.length + o.imports.length + 20) 1 hfirst
  obtain ⟨l, himport⟩ := block_imports_eq (fuel + o.parameters.length + portions.length + 60) 27 25
    o.imports (show ∃ k more, render = ⟨.keyword .«local», k⟩ :: more from ⟨_, _, rfl⟩) (by omega)
  have hrender := block_render_eq fuel n l o.parameters portions
    (show ∃ more, entry = ⟨.keyword .«return», n + 8 + portions.length + 3⟩ :: more from ⟨_, rfl⟩)
  obtain ⟨b, q, hb, hsame, hq⟩ := reads_entry o.arguments
    (fuel + o.parameters.length + portions.length + 59)
    (by rw [List.length_append, List.length_singleton]; omega)
    ⟨n + 8 + portions.length + 1, entry⟩ hkinds
  obtain ⟨s, rfl, hs⟩ := exists_isEntry hsame
  have hblock : Reader.block
        (Reader.depth (tokenize (o.text first (portions.map Portion.line)).toList))
        ⟨1, tokenize (o.text first (portions.map Portion.line)).toList⟩ =
      .ok (preambleTree o.imports ++
        [renderStat (o.parameters.map String.toList) n portions, s], q) := by
    rw [hfuel, hsplit, show fuel + o.parameters.length + portions.length + 60 + o.imports.length + 6 =
        fuel + o.parameters.length + portions.length + o.imports.length + 20 + 46 by omega,
      hprelude,
      show fuel + o.parameters.length + portions.length + o.imports.length + 20 + 40 =
        fuel + o.parameters.length + portions.length + 60 + o.imports.length by omega, himport,
      Reader.behind_behind]
    refine (congrArg _ hrender).trans ?_
    rw [Reader.behind_behind, hb]
    simp [Reader.behind, Except.map, preambleTree]
  refine ⟨s, Reader.lineAt q, hs,
    Block.ofTokens_eq_ok_iff.mpr ⟨?_, q, hblock, Reader.tokenAt_of_kinds hq, rfl⟩⟩
  rw [hsplit]
  show some (Token.keyword .«local») ≠ some .fault
  simp

/-- **The text of a program is read** as its statements. -/
theorem read_text {first : String} {portions : List Portion} (hfirst : LineReads first [])
    (hparameters : ∀ p ∈ o.parameters, isIdentifier p = true)
    (himports : ∀ i ∈ o.imports, isIdentifier i.1 = true) (hne : o.imports ≠ [])
    (hnames : ∀ p ∈ portions, ∀ name ∈ p.names, isIdentifier name = true) :
    ∃ s, IsEntry o.arguments s ∧
      (Chunk.template (o.text first (portions.map Portion.line))).read =
        .ok (preambleTree o.imports ++
          [renderStat (o.parameters.map String.toList) (27 + o.imports.length) portions, s]) := by
  obtain ⟨s, line, hs, htokens⟩ := exists_ofTokens hfirst hparameters himports hne hnames
  have hcheck : (preambleTree o.imports ++
      [renderStat (o.parameters.map String.toList) (27 + o.imports.length) portions, s]).check
        line = .ok () :=
    check_preambleTree o.imports line fun _ =>
      Scope.checkBlock_renderStat _ _ portions fun _ => Scope.checkBlock_isEntry hs
  refine ⟨s, hs, ?_⟩
  simp only [Chunk.read, Chunk.template, htokens, hcheck]

end Outline

end Stencil.Lua
