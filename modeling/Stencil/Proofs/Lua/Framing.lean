import Stencil.Proofs.Lua.Spelling
import Stencil.Proofs.Lua.ProgramTree
set_option autoImplicit false

/-!
# What stands around the parts

The statements of a program are those of its fixed text with what the parts say in between. Here
are the readers for the fixed text: functions with any number of parameters, calls with any number
of arguments, and the statements that end a function.

## Main definitions

* `Stencil.Lua.Argues` — tokens that are an argument of a call.
* `Stencil.Lua.framed` — the statements of a program, but for their lines.

## Main results

* `Stencil.Lua.Reader.takes_local_function` — a function, from its parameters and its body.
* `Stencil.Lua.reads_framed` — the tokens of a program are read as its statements.
-/

namespace Stencil.Lua

open Juncture (SameBlock SameStat SameExp SameExps)
open Reader (Takes Reads Prepends)

/-! ## Parameters and functions -/

namespace Reader

variable {fuel limit : Nat} {rest ts : List Token} {t u : Token} {x : Exp} {xs : List Exp}
  {b : Block}

/-- Parameters up to the closing parenthesis, one at least. -/
theorem takes_parameters (ps : List Ident) (hne : ps ≠ []) (hfuel : ps.length ≤ fuel)
    (hrest : rest.head? ≠ some .fault) :
    Takes (parameters fuel) (· = (ps, false))
      (commas (ps.map fun p => [.name p]) ++ .symbol .rightParen :: rest) rest := by
  induction ps generalizing fuel with
  | nil => exact absurd rfl hne
  | cons p ps ih =>
    obtain ⟨fuel, rfl⟩ : ∃ n, fuel = n + 1 := ⟨fuel - 1, by rw [List.length_cons] at hfuel; omega⟩
    cases ps with
    | nil =>
      refine (takes_accept_ne (by simp)).bind ?_
      rintro _ rfl
      refine (takes_name (by simp)).bind ?_
      rintro _ rfl
      refine (takes_accept_ne (by simp)).bind ?_
      rintro _ rfl
      exact (takes_expect hrest).bind fun _ _ => takes_pure rfl
    | cons p' ps =>
      have hmore : (commas ((p' :: ps).map fun p => [.name p]) ++
          .symbol .rightParen :: rest).head? ≠ some .fault := by
        cases ps <;> simp
      have hlength : (p' :: ps).length ≤ fuel := by
        simp only [List.length_cons] at hfuel ⊢
        omega
      have hps := ih (by simp) hlength
      rw [List.map_cons, List.map_cons, commas_cons_cons, List.append_assoc]
      refine (takes_accept_ne (by simp)).bind ?_
      rintro _ rfl
      refine (takes_name (by simp)).bind ?_
      rintro _ rfl
      refine (takes_accept hmore).bind ?_
      rintro _ rfl
      refine hps.bind ?_
      rintro _ rfl
      exact takes_pure rfl

/-- Parameters in parentheses. -/
theorem takes_parameterList {ps : List Ident} (hfuel : ps.length ≤ fuel)
    (hrest : rest.head? ≠ some .fault) :
    Takes (parameterList fuel) (· = (ps, false))
      (.symbol .leftParen :: (commas (ps.map fun p => [.name p]) ++ .symbol .rightParen :: rest))
      rest := by
  cases ps with
  | nil =>
    refine (takes_expect (by simp)).bind fun _ _ => (takes_accept hrest).bind ?_
    rintro _ rfl
    exact takes_pure rfl
  | cons p ps =>
    have hps := takes_parameters (p :: ps) (by simp) hfuel hrest
    obtain ⟨more, hmore⟩ : ∃ more, commas ((p :: ps).map fun p => [.name p]) ++
        .symbol .rightParen :: rest = .name p :: more := by
      cases ps with
      | nil => exact ⟨_, rfl⟩
      | cons p' ps => exact ⟨_, rfl⟩
    rw [hmore] at hps ⊢
    refine (takes_expect (by simp)).bind fun _ _ => (takes_accept_ne (by simp)).bind ?_
    rintro _ rfl
    exact hps

/-- **A function from its parameters to its end.** -/
theorem takes_functionBody (ps : List Ident) (hfuel : ps.length ≤ fuel)
    (hts : ts.head? ≠ some .fault) (hrest : rest.head? ≠ some .fault)
    (hb : Takes (block fuel) (SameBlock b) ts (.keyword .«end» :: rest)) :
    Takes (functionBody (fuel + 1) false) (SameExp (.function ps false b 0))
      (.symbol .leftParen :: (commas (ps.map fun p => [.name p]) ++ .symbol .rightParen :: ts))
      rest := by
  refine (takes_parameterList hfuel hts).bind ?_
  rintro _ rfl
  refine hb.bind fun c hc => (takes_expectWord hrest).bind fun _ _ => Takes.line fun n => ?_
  refine takes_pure ?_
  simp only [SameBlock, SameExp, Exp.shape, Stat.shapes_eq_map] at hc ⊢
  rw [hc]
  rfl

/-- **The declaration of a function.** -/
theorem takes_local_function {f : Ident} {ps : List Ident} (hfuel : ps.length ≤ fuel)
    (hts : ts.head? ≠ some .fault) (hrest : rest.head? ≠ some .fault)
    (hb : Takes (block fuel) (SameBlock b) ts (.keyword .«end» :: rest)) :
    Takes (statement (fuel + 2))
      (Option.Rel SameStat (some (.declareFunction f (.function ps false b 0))))
      (.keyword .«local» :: .keyword .function :: .name f :: .symbol .leftParen ::
        (commas (ps.map fun p => [.name p]) ++ .symbol .rightParen :: ts)) rest := by
  refine Takes.line fun n => Takes.current ((takes_advance (by simp)).bind fun _ _ => ?_)
  refine (takes_acceptWord (by simp)).bind ?_
  rintro _ rfl
  refine (takes_name (by simp)).bind ?_
  rintro _ rfl
  refine (takes_functionBody ps hfuel hts hrest hb).bind fun e he => takes_pure (.some ?_)
  simp only [SameExp, SameStat, Stat.shape] at he ⊢
  rw [he]

/-- What was read first, and what was read behind it. -/
theorem Takes.exists_of_bind {α β : Type} {y : Reader α} {P : α → Prop} {f : α → Reader β}
    {us : List Token} (h : Takes y P ts us) {q q' : Place} (hq : kinds q.tokens = ts) {c : β}
    (hc : (y >>= f) q = .ok (c, q')) :
    ∃ a q₁, P a ∧ kinds q₁.tokens = us ∧ f a q₁ = .ok (c, q') := by
  obtain ⟨a, q₁, hy, ha, hq₁⟩ := h q hq
  obtain ⟨a', q₁', hy', hf⟩ := Reader.exists_of_bind hc
  obtain ⟨rfl, rfl⟩ := Prod.mk.inj (Except.ok.inj (hy.symm.trans hy'))
  exact ⟨a, q₁, ha, hq₁, hf⟩

/-- **What is read as the declaration of a function** has its name and its parameters. -/
theorem exists_of_local_function {f : Ident} {ps : List Ident} (hfuel : ps.length ≤ fuel)
    (hts : ts.head? ≠ some .fault) {q q' : Place} {o : Option Stat}
    (hq : kinds q.tokens = .keyword .«local» :: .keyword .function :: .name f ::
      .symbol .leftParen :: (commas (ps.map fun p => [.name p]) ++ .symbol .rightParen :: ts))
    (h : statement (fuel + 2) q = .ok (o, q')) :
    ∃ body line, o = some (.declareFunction f (.function ps false body line)) := by
  rw [statement, currentLine_bind, current_bind, tokenAt_of_kinds hq] at h
  obtain ⟨-, q₁, -, hq₁, h⟩ := (takes_advance (by simp)).exists_of_bind hq h
  obtain ⟨_, q₂, rfl, hq₂, h⟩ := (takes_acceptWord (by simp)).exists_of_bind hq₁ h
  obtain ⟨_, q₃, rfl, hq₃, h⟩ := (takes_name (by simp)).exists_of_bind hq₂ h
  obtain ⟨e, q₄, hbody, h⟩ := Reader.exists_of_bind h
  cases h
  rw [functionBody] at hbody
  obtain ⟨_, q₅, rfl, -, hbody⟩ := (takes_parameterList hfuel hts).exists_of_bind hq₃ hbody
  obtain ⟨b, q₆, -, hbody⟩ := Reader.exists_of_bind hbody
  obtain ⟨-, q₇, -, hbody⟩ := Reader.exists_of_bind hbody
  obtain ⟨line, q₈, -, hbody⟩ := Reader.exists_of_bind hbody
  cases hbody
  exact ⟨b, line, rfl⟩

/-! ## Values -/

/-- An expression without operators, in front of a token that is none. -/
theorem takes_expression (hu : unaryOp? u = none) (ht : binaryOp? t = none)
    (hx : Takes (simple (fuel + 1)) (SameExp x) (u :: ts) (t :: rest)) :
    Takes (expression (fuel + 2) limit) (SameExp x) (u :: ts) (t :: rest) := by
  refine Takes.current ?_
  rw [hu]
  refine hx.bind fun e he => Takes.current ?_
  rw [ht]
  exact takes_pure he

/-- A variable or a call of one is an expression without operators. -/
theorem takes_simple_name {s : Ident} (hrest : ts.head? ≠ some .fault)
    (hx : Takes (suffixes fuel (.var s)) (SameExp x) ts rest) :
    Takes (simple (fuel + 2)) (SameExp x) (.name s :: ts) rest :=
  Takes.current (Takes.current ((takes_advance hrest).bind fun _ _ => hx))

/-- A function is an expression without operators. -/
theorem takes_simple_function (hts : ts.head? ≠ some .fault)
    (hx : Takes (functionBody fuel false) (SameExp x) ts rest) :
    Takes (simple (fuel + 1)) (SameExp x) (.keyword .function :: ts) rest :=
  Takes.current ((takes_advance hts).bind fun _ _ => hx)

/-- **A `return` with one value,** in front of the end of a block. -/
theorem takes_return (hu : unaryOp? u = none) (hfirst : u ≠ .symbol .semicolon)
    (hfault : u ≠ .fault) (hends : endsBlock u = false) (ht : endsBlock t = true)
    (hx : Takes (simple (fuel + 1)) (SameExp x) (u :: ts) (t :: rest)) :
    Takes (block (fuel + 5)) (SameBlock [.yields [x]]) (.keyword .«return» :: u :: ts)
      (t :: rest) := by
  have hbinary : binaryOp? t = none := by
    cases t with
    | keyword k => cases k <;> first | rfl | cases ht
    | finish => rfl
    | _ => cases ht
  have hsign (s : Symbol) : t ≠ .symbol s := by
    rintro rfl
    cases ht
  have hexpressions : Takes (expressions (fuel + 3)) (SameExps [x]) (u :: ts) (t :: rest) := by
    refine (takes_expression hu hbinary hx).bind fun e he => (takes_accept_ne (hsign _)).bind ?_
    rintro _ rfl
    refine takes_pure ?_
    simp only [SameExp, SameExps, List.map_cons, List.map_nil] at he ⊢
    rw [he]
  have hreturned : Takes (returned (fuel + 4)) (SameStat (.yields [x])) (u :: ts) (t :: rest) := by
    refine Takes.current ?_
    split
    · exact absurd rfl hfirst
    · rw [hends, if_neg (by simp)]
      refine hexpressions.bind fun es hes => (takes_accept_ne (hsign _)).bind fun _ _ => ?_
      refine takes_pure ?_
      simp only [SameExps, SameStat, Stat.shape, Exp.shapes_eq_map] at hes ⊢
      rw [hes]
  rw [block]
  refine Takes.current ?_
  rw [if_neg (by simp [endsBlock])]
  refine (takes_acceptWord (by simpa using hfault)).bind ?_
  rintro _ rfl
  refine hreturned.bind fun s hs => takes_pure ?_
  simp only [SameStat, SameBlock, List.map_cons, List.map_nil] at hs ⊢
  rw [hs]

end Reader

/-! ## Calls -/

/-- **Tokens that are an argument of a call,** in front of a comma or of its closing parenthesis. -/
structure Argues (ts : List Token) (x : Exp) : Prop where
  first : ∃ u us, ts = u :: us ∧ u ≠ .symbol .rightParen ∧ u ≠ .fault
  reads : ∀ fuel t rest, 10 ≤ fuel → t = .symbol .comma ∨ t = .symbol .rightParen →
    Takes (Reader.expression fuel 0) (SameExp x) (ts ++ t :: rest) (t :: rest)

/-- A variable is an argument. -/
theorem argues_var (s : Ident) : Argues [.name s] (.var s) := by
  refine ⟨⟨_, _, rfl, by simp, by simp⟩, ?_⟩
  intro fuel t rest hfuel ht
  obtain ⟨k, rfl⟩ : ∃ k, fuel = k + 4 := ⟨fuel - 4, by omega⟩
  have hsuffixes : Takes (Reader.suffixes (k + 1) (.var s)) (SameExp (.var s)) (t :: rest)
      (t :: rest) := by
    refine Takes.current ?_
    rcases ht with rfl | rfl <;> exact Reader.takes_pure rfl
  have hfault : (t :: rest).head? ≠ some .fault := by rcases ht with rfl | rfl <;> simp
  exact Reader.takes_expression rfl (by rcases ht with rfl | rfl <;> rfl)
    (Reader.takes_simple_name hfault hsuffixes)

/-- **An argument for the rendering function.** -/
theorem Passed.argues (a : Passed) : Argues a.tokens a.value := by
  cases a with
  | state => exact argues_var _
  | property name =>
    refine ⟨⟨_, _, rfl, by simp, by simp⟩, ?_⟩
    intro fuel t rest hfuel ht
    obtain ⟨k, rfl⟩ : ∃ k, fuel = k + 8 := ⟨fuel - 8, by omega⟩
    have hfault : (t :: rest).head? ≠ some .fault := by rcases ht with rfl | rfl <;> simp
    have hkey : Takes (Reader.expression (k + 4) 0) (SameExp (.string (Bytes.ofText name)))
        (.string (Bytes.ofText name) :: .symbol .rightBracket :: t :: rest)
        (.symbol .rightBracket :: t :: rest) :=
      Reader.takes_expression rfl rfl
        (Takes.current ((Reader.takes_advance (by simp)).bind fun _ _ => Reader.takes_pure rfl))
    have hsuffixes : Takes (Reader.suffixes (k + 5) (.var "__state".toList))
        (SameExp (property name).value)
        (.symbol .leftBracket :: .string (Bytes.ofText name) :: .symbol .rightBracket :: t :: rest)
        (t :: rest) := by
      refine Takes.current ((Reader.takes_advance (by simp)).bind fun _ _ => hkey.bind ?_)
      intro e he
      refine (Reader.takes_expect hfault).bind fun _ _ => ?_
      have hline : Takes Reader.previousLine (fun _ => True) (t :: rest) (t :: rest) :=
        fun q hq => ⟨q.previous, q, rfl, trivial, hq⟩
      refine hline.bind fun n _ => Takes.current ?_
      have hindex : SameExp (property name).value (.index n (.var "__state".toList) e) := by
        simp only [SameExp, value, Exp.shape] at he ⊢
        rw [← he]
      rcases ht with rfl | rfl <;> exact Reader.takes_pure hindex
    exact Reader.takes_expression rfl (by rcases ht with rfl | rfl <;> rfl)
      (Reader.takes_simple_name (by simp) hsuffixes)

/-- Arguments with commas between them, one at least. -/
theorem takes_expressions {fuel : Nat} {tss : List (List Token)} {xs : List Exp}
    (rest : List Token) (h : List.Forall₂ Argues tss xs) (hne : xs ≠ [])
    (hfuel : xs.length + 10 ≤ fuel) :
    Takes (Reader.expressions fuel) (SameExps xs) (commas tss ++ .symbol .rightParen :: rest)
      (.symbol .rightParen :: rest) := by
  induction h generalizing fuel with
  | nil => exact absurd rfl hne
  | @cons ts x tss xs hts hmore ih =>
    obtain ⟨fuel, rfl⟩ : ∃ n, fuel = n + 1 := ⟨fuel - 1, by omega⟩
    rw [List.length_cons] at hfuel
    cases hmore with
    | nil =>
      rw [commas_singleton]
      refine (hts.reads fuel _ rest (by omega) (.inr rfl)).bind fun e he => ?_
      refine (Reader.takes_accept_ne (by simp)).bind ?_
      rintro _ rfl
      refine Reader.takes_pure ?_
      simp only [SameExp, SameExps, List.map_cons, List.map_nil] at he ⊢
      rw [he]
    | @cons us y tss xs hus hmore =>
      have hlength : (y :: xs).length + 10 ≤ fuel := by omega
      have hbehind := ih (by simp) hlength
      obtain ⟨u, us, rfl, -, hu⟩ := hus.first
      have hfault : (commas ((u :: us) :: tss) ++ .symbol .rightParen :: rest).head? ≠
          some .fault := by
        cases tss <;> simpa using hu
      rw [commas_cons_cons, List.append_assoc]
      refine (hts.reads fuel _ _ (by omega) (.inl rfl)).bind fun e he => ?_
      refine (Reader.takes_accept hfault).bind ?_
      rintro _ rfl
      refine hbehind.bind fun es hes => Reader.takes_pure ?_
      simp only [SameExp, SameExps, List.map_cons] at he hes ⊢
      rw [he, hes]

/-- Arguments in parentheses. -/
theorem takes_arguments {fuel : Nat} {tss : List (List Token)} {xs : List Exp} {t : Token}
    {rest : List Token} (h : List.Forall₂ Argues tss xs) (hfuel : xs.length + 10 ≤ fuel)
    (ht : t ≠ .fault) :
    Takes (Reader.arguments (fuel + 1)) (SameExps xs)
      (.symbol .leftParen :: (commas tss ++ .symbol .rightParen :: t :: rest)) (t :: rest) := by
  have hfault : (t :: rest).head? ≠ some .fault := by simpa using ht
  cases h with
  | nil =>
    refine Takes.current ((Reader.takes_advance (by simp)).bind fun _ _ => ?_)
    refine (Reader.takes_accept hfault).bind ?_
    rintro _ rfl
    exact Reader.takes_pure rfl
  | @cons ts x tss xs hts hmore =>
    have hes := takes_expressions (t :: rest) (.cons hts hmore) (by simp) hfuel
    obtain ⟨u, us, rfl, hparen, hu⟩ := hts.first
    obtain ⟨more, heq⟩ : ∃ more, commas ((u :: us) :: tss) ++ .symbol .rightParen :: t :: rest =
        u :: more := by
      cases tss with
      | nil => exact ⟨_, rfl⟩
      | cons us' tss => exact ⟨_, rfl⟩
    rw [heq] at hes ⊢
    refine Takes.current ((Reader.takes_advance (by simpa using hu)).bind fun _ _ => ?_)
    refine (Reader.takes_accept_ne hparen).bind ?_
    rintro _ rfl
    refine hes.bind fun es hsame => (Reader.takes_expect hfault).bind fun _ _ => ?_
    exact Reader.takes_pure hsame

/-! ## Fixed texts -/

/-- The kinds of tokens of lines. -/
theorem kinds_locate (n : Nat) (tss : List (List Token)) : kinds (locate n tss) = tss.flatten := by
  induction tss generalizing n with
  | nil => rfl
  | cons ts tss ih =>
    rw [locate, kinds_append, ih, List.flatten_cons]
    simp [kinds, Function.comp_def]

/-- **Tokens that are statements on their own,** and go on with nothing before and behind them. -/
structure Alone (ts : List Token) (b : Block) : Prop where
  reads : ∃ tokens line, kinds tokens = ts ++ [.finish] ∧ Block.ofTokens tokens = .ok (b, line)
  noFinish : .finish ∉ ts
  noReturn : ∀ vs, b.getLast? ≠ some (.yields vs)
  noParen : ts.head? ≠ some (.symbol .leftParen)

/-- Such tokens stand in front of others. -/
theorem Alone.prepends {ts : List Token} {b : Block} (h : Alone ts b) : Prepends ts b := by
  obtain ⟨tokens, line, hkinds, hread⟩ := h.reads
  exact (Reader.prepends_of_ofTokens hkinds (.inl rfl) h.noFinish hread h.noReturn h.noParen).2

/-- What is read of such tokens and of others behind them begins with the statements. -/
theorem Alone.starts {ts : List Token} {b : Block} (h : Alone ts b) : Reader.Starts ts b := by
  obtain ⟨tokens, line, hkinds, hread⟩ := h.reads
  obtain ⟨-, p, hblock, hend, -⟩ := Block.ofTokens_eq_ok_iff.mp hread
  have hdepth : Reader.depth tokens = 16 * ts.length + 32 := by
    have hlength : tokens.length = ts.length + 1 := by
      have heq := congrArg List.length hkinds
      simpa [kinds] using heq
    rw [Reader.depth, hlength]
    omega
  refine ⟨h.prepends.parts, fun t more fuel q c r ht hfuel hq hc => ?_⟩
  exact Juncture.block_starts (j := ⟨.finish, t, more, .inl rfl, ht⟩) (by omega)
    ⟨hkinds, hq, fun _ => rfl, h.noFinish⟩ hblock hend h.noReturn hc

/-- **Fixed lines** on their own. -/
theorem alone_fixed (n : Nat) {tss : List (List Token)} {b : Block}
    (hread : Block.ofTokens (locate n tss ++ [⟨.finish, n + tss.length⟩]) =
      .ok (b, n + tss.length))
    (hfinish : .finish ∉ tss.flatten) (hreturn : ∀ vs, b.getLast? ≠ some (.yields vs))
    (hparen : tss.flatten.head? ≠ some (.symbol .leftParen)) : Alone tss.flatten b := by
  refine ⟨⟨_, _, ?_, hread⟩, hfinish, hreturn, hparen⟩
  rw [kinds_append, kinds_locate]
  rfl

/-- The local variables of the prelude. -/
theorem alone_preludeTree : Alone (preludeTokens.take 5).flatten preludeTree :=
  alone_fixed 2 (by cbv) (by simp [preludeTokens]) (by simp [preludeTree]) (by simp [preludeTokens])

/-- The function of the prelude. -/
theorem alone_importFunction : Alone (preludeTokens.drop 5).flatten [importFunction 27] :=
  alone_fixed 7 (by cbv) (by simp [preludeTokens]) (by simp [importFunction])
    (by simp [preludeTokens])

/-- The statement of an import. -/
theorem alone_import (i : Import) : Alone (importTokens i.1 i.2) [importStat i 1] :=
  ⟨⟨(importTokens i.1 i.2).map (⟨·, 1⟩) ++ [⟨.finish, 2⟩], 2, kinds_append _ _, rfl⟩,
    by simp [importTokens], by simp [importStat], by simp [importTokens]⟩

/-- The statements at the beginning of the rendering function. -/
theorem alone_prologueTree : Alone prologueTokens.flatten (prologueTree 1) :=
  alone_fixed 1 (by cbv) (by simp [prologueTokens]) (by simp [prologueTree])
    (by simp [prologueTokens])

/-- The statements of the prelude stand in front of others. -/
theorem prepends_prelude :
    Prepends preludeTokens.flatten (preludeTree ++ [importFunction 27]) := by
  have hboth := alone_preludeTree.prepends.append alone_importFunction.prepends
  rwa [← List.flatten_append, List.take_append_drop] at hboth

/-! ## The whole program -/

/-- There are no fewer tokens than items between the commas. -/
theorem length_le_length_commas (tss : List (List Token)) (h : ∀ ts ∈ tss, ts ≠ []) :
    tss.length ≤ (commas tss).length := by
  induction tss with
  | nil => exact le_rfl
  | cons ts tss ih =>
    have hts := List.length_pos_iff.mpr (h ts (by simp))
    have htss := ih fun us hus => h us (by simp [hus])
    cases tss with
    | nil =>
      rw [commas_singleton]
      exact hts
    | cons us tss =>
      simp only [commas_cons_cons, List.length_append, List.length_cons] at htss ⊢
      omega

/-- There are no fewer tokens than arguments. -/
theorem length_le_length_arguments {tss : List (List Token)} {xs : List Exp}
    (h : List.Forall₂ Argues tss xs) : xs.length ≤ (commas tss).length := by
  have hne : ∀ ts ∈ tss, ts ≠ [] := by
    induction h with
    | nil => simp
    | cons hts _ ih =>
      obtain ⟨u, us, rfl, -⟩ := hts.first
      simpa using ih
  rw [← h.length_eq]
  exact length_le_length_commas tss hne

/-- **A `return` of a call,** at the end of a function. -/
theorem reads_return_call (s : Ident) {tss : List (List Token)} {xs : List Exp}
    (rest : List Token) (h : List.Forall₂ Argues tss xs) :
    Reads (.keyword .«return» :: .name s :: .symbol .leftParen ::
        (commas tss ++ .symbol .rightParen :: .keyword .«end» :: rest))
      [.yields [.call 0 (.var s) xs]] (.keyword .«end» :: rest) := by
  intro fuel hfuel
  have hlength := length_le_length_arguments h
  simp only [List.length_cons, List.length_append] at hfuel
  obtain ⟨k, rfl⟩ : ∃ k, fuel = k + 8 := ⟨fuel - 8, by omega⟩
  have hargs : Takes (Reader.arguments (k + 1)) (SameExps xs) (.symbol .leftParen ::
      (commas tss ++ .symbol .rightParen :: .keyword .«end» :: rest)) (.keyword .«end» :: rest) :=
    takes_arguments h (by omega) (by simp)
  exact Reader.takes_return rfl (by simp) (by simp) rfl rfl
    (Reader.takes_simple_name (by simp) (takes_suffixes_call hargs rfl))

/-- The tokens of the beginning of the rendering function, and those behind them. -/
theorem openTokens_append (parameters : List String) (rest : List Token) :
    openTokens parameters ++ rest = .keyword .«local» :: .keyword .function ::
      .name "__render".toList :: .symbol .leftParen ::
        (commas ((parameters.map String.toList).map fun p => [.name p]) ++
          .symbol .rightParen :: rest) := by
  simp [openTokens, Function.comp_def]

/-- The function that the program gives. -/
def entryStat (arguments : List Exp) : Stat :=
  .yields [.function ["__state".toList] false
    [.yields [.call 0 (.var "__render".toList) arguments]] 0]

/-- The tokens of the function that the program gives are read as it. -/
theorem reads_entry (as : List Passed) :
    Reads (entryTokens as ++ [.finish]) [entryStat (as.map Passed.value)] [.finish] := by
  intro fuel hfuel
  simp only [entryTokens, List.length_cons, List.length_append] at hfuel
  obtain ⟨k, rfl⟩ : ∃ k, fuel = k + 6 := ⟨fuel - 6, by omega⟩
  have harguments : List.Forall₂ Argues (as.map Passed.tokens) (as.map Passed.value) := by
    rw [List.forall₂_map_left_iff, List.forall₂_map_right_iff, List.forall₂_same]
    exact fun a _ => a.argues
  have hbody := reads_return_call "__render".toList [.finish] harguments k
    (by simp only [List.length_cons, List.length_append]; omega)
  have hfunction := Reader.takes_functionBody ["__state".toList]
    (by rw [List.length_singleton]; omega) (by simp) (by simp) hbody
  have hreturn := Reader.takes_return rfl (by simp) (by simp) rfl rfl
    (Reader.takes_simple_function (by simp) hfunction)
  simpa [entryTokens, entryStat] using hreturn

/-- **The statements of a program,** but for their lines: the prelude, the imports, the function
that renders, and the function of the state. -/
def framed (parameters : List Ident) (imports : List Import) (body : Block)
    (arguments : List Exp) : Block :=
  preludeTree ++ [importFunction 27] ++ (imports.map fun i => [importStat i 1]).flatten ++
    [.declareFunction "__render".toList
      (.function parameters false (prologueTree 1 ++ body ++ [concatStat 0]) 0),
     entryStat arguments]

/-- **The tokens of a program are read as its statements.** -/
theorem reads_framed (parameters : List String) (imports : List Import) (as : List Passed)
    {ts : List Token} {body : Block} (hbody : Prepends ts body) :
    Reads (preludeTokens.flatten ++ (imports.map fun i => importTokens i.1 i.2).flatten ++
        (openTokens parameters ++ (prologueTokens.flatten ++ ts ++ (closeTokens as ++ [.finish]))))
      (framed (parameters.map String.toList) imports body (as.map Passed.value)) [.finish] := by
  have himports : Prepends (imports.map fun i => importTokens i.1 i.2).flatten
      (imports.map fun i => [importStat i 1]).flatten := by
    refine Prepends.flatten ?_
    rw [List.forall₂_map_left_iff, List.forall₂_map_right_iff, List.forall₂_same]
    exact fun i _ => (alone_import i).prepends
  have hout : List.Forall₂ Argues [[.name "__out".toList]] [.var "__out".toList] :=
    .cons (argues_var _) .nil
  have hrender : Reads (openTokens parameters ++
      (prologueTokens.flatten ++ ts ++ (closeTokens as ++ [.finish])))
      [.declareFunction "__render".toList (.function (parameters.map String.toList) false
        (prologueTree 1 ++ body ++ [concatStat 0]) 0), entryStat (as.map Passed.value)]
      [.finish] := by
    intro fuel hfuel
    have hparameters := length_le_length_commas
      ((parameters.map String.toList).map fun p => [.name p]) (by simp)
    rw [openTokens_append] at hfuel ⊢
    simp only [List.length_cons, List.length_append, List.length_map] at hfuel hparameters
    obtain ⟨k, rfl⟩ : ∃ k, fuel = k + 3 := ⟨fuel - 3, by omega⟩
    have hconcat := reads_return_call "__concat".toList (entryTokens as ++ [.finish]) hout
    have hinside := (alone_prologueTree.prepends.append hbody).reads _ _ _ _ rfl (by simp) hconcat k
      (by
        simp only [closeTokens, commas_singleton, List.length_cons, List.length_append] at hfuel ⊢
        omega)
    have hentry := reads_entry as (k + 2) (by
      simp only [closeTokens, List.length_cons, List.length_append] at hfuel ⊢
      omega)
    have hfirst : (prologueTokens.flatten ++ ts ++ (closeTokens as ++ [Token.finish])).head? ≠
        some .fault := by
      simp [prologueTokens]
    refine Reader.takes_block_statement rfl ?_ hentry
    refine Reader.takes_local_function ?_ hfirst (by simp [entryTokens]) ?_
    · rw [List.length_map]
      omega
    · simpa [closeTokens, concatStat] using hinside
  exact (prepends_prelude.append himports).reads _ _ _ _ rfl (by simp) hrender

end Stencil.Lua
