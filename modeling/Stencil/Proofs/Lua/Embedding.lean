import Stencil.Proofs.Lua.Sequence
set_option autoImplicit false

/-!
# Expressions inside a call

A text that is an expression on its own is the argument of the call that it is put into, if it does
not end inside a comment that takes in the closing parenthesis.

## Main definitions

* `Stencil.Lua.Expresses` — a text that is an expression behind a `return`.
* `Stencil.Lua.EndsInSemicolon` — a text whose last token is a semicolon.

## Main results

* `Stencil.Lua.complete_write` — the statement that writes the value of an expression.
-/

namespace Stencil.Lua

open Juncture (SameBlock SameStat SameExp SameExps)
open Reader (Takes Reads)

/-! ## Expressions on their own -/

/-- **A text that is an expression:** behind a `return` it is a whole program, which gives the one
value. -/
def Expresses (s : List Char) (x : Exp) : Prop :=
  ∃ line, Block.ofTokens (⟨.keyword .«return», 0⟩ :: tokenize s) = .ok ([.yields [x]], line)

/-- A text whose last token is a semicolon, which a `return` may have at its end. -/
def EndsInSemicolon (s : List Char) : Prop :=
  ∃ ts, kinds (tokenize s) = ts ++ [.symbol .semicolon, .finish]

/-- What follows a `return`, when it is one value. -/
theorem expressions_of_returned {fuel : Nat} {p p' : Place} {x : Exp}
    (h : Reader.returned fuel p = .ok (.yields [x], p')) :
    ∃ k q b, fuel = k + 1 ∧ Reader.expressions k p = .ok ([x], q) ∧
      Reader.accept .semicolon q = .ok (b, p') := by
  cases fuel with
  | zero => cases h
  | succ fuel =>
    rw [Reader.returned, Reader.current_bind] at h
    generalize Reader.tokenAt p = t at h
    split at h
    · obtain ⟨_, _, -, h⟩ := Reader.exists_of_bind h
      cases h
    · split at h
      · cases h
      · obtain ⟨es, q, hes, h⟩ := Reader.exists_of_bind h
        obtain ⟨b, q', hb, h⟩ := Reader.exists_of_bind h
        cases h
        exact ⟨fuel, q, b, rfl, hes, hb⟩

/-- A sign is accepted where it stands, and nowhere else. -/
theorem accept_eq_ok {s : Symbol} {p p' : Place} {b : Bool}
    (h : Reader.accept s p = .ok (b, p')) :
    p' = p ∨ Reader.tokenAt p = .symbol s ∧ p'.tokens = p.tokens.tail := by
  rw [Reader.accept, Reader.current_bind] at h
  generalize Reader.tokenAt p = t at h ⊢
  split at h
  · rename_i u
    by_cases hu : u = s
    · rw [if_pos hu] at h
      obtain ⟨_, q, hq, hpure⟩ := Reader.exists_of_bind h
      cases hpure
      obtain ⟨rfl, -⟩ := Juncture.advance_eq_ok_iff.mp hq
      exact .inr ⟨by rw [hu], rfl⟩
    · rw [if_neg hu] at h
      cases h
      exact .inl rfl
  · cases h
    exact .inl rfl

/-- The first token of an expression is no closing parenthesis. -/
theorem expression_first {fuel limit : Nat} {p : Place} {r : Exp × Place}
    (h : Reader.expression fuel limit p = .ok r) :
    Reader.tokenAt p ≠ .symbol .rightParen := by
  intro hp
  have hsuffixed (k : Nat) (r : Exp × Place) : Reader.suffixed k p ≠ .ok r := by
    intro hr
    rcases Reader.suffixed_first hr with ⟨s, hs⟩ | hs <;> rw [hp] at hs <;> cases hs
  cases fuel with
  | zero => cases h
  | succ fuel =>
    rw [Reader.expression, Reader.current_bind, hp] at h
    obtain ⟨e, p₁, he, -⟩ := Reader.exists_of_bind h
    cases fuel with
    | zero => cases he
    | succ fuel =>
      rw [Reader.simple, Reader.current_bind, hp] at he
      exact hsuffixed _ _ he

/-- **What is read of an expression on its own:** it begins at the first token, and behind it is the
end of the text, or a semicolon in front of it. -/
theorem Expresses.exists_read {s : List Char} {x : Exp} {ts : List Token} {last : Token}
    (h : Expresses s x) (hts : kinds (tokenize s) = ts ++ [last]) :
    ∃ k q p b, k ≤ 16 * ts.length + 46 ∧ Reader.expressions k ⟨0, tokenize s⟩ = .ok ([x], q) ∧
      Reader.accept .semicolon q = .ok (b, p) ∧ Reader.tokenAt p = .finish ∧
      (kinds (tokenize s)).head? ≠ some .fault := by
  obtain ⟨line, hread⟩ := h
  obtain ⟨-, p, hblock, hend, -⟩ := Block.ofTokens_eq_ok_iff.mp hread
  have hlength : (tokenize s).length = ts.length + 1 := by
    have heq := congrArg List.length hts
    simpa [kinds] using heq
  have hdepth : Reader.depth (⟨.keyword .«return», 0⟩ :: tokenize s) = 16 * ts.length + 47 + 1 := by
    rw [Reader.depth, List.length_cons, hlength]
    omega
  rw [hdepth] at hblock
  obtain ⟨p₁, s', hadvance, hreturned, hs'⟩ := Reader.block_return rfl hblock
  obtain ⟨rfl, hfault⟩ := Juncture.advance_eq_ok_iff.mp hadvance
  obtain rfl : Stat.yields [x] = s' := (List.cons.inj hs').1
  obtain ⟨k, q, b, hk, hes, haccept⟩ := expressions_of_returned hreturned
  exact ⟨k, q, p, b, by omega, hes, haccept, hend, hfault⟩

/-- **An expression on its own, in front of more:** its tokens, and how they are read before a
token that goes on with nothing. -/
theorem Expresses.expressions {s : List Char} {x : Exp} (h : Expresses s x)
    (hsemicolon : ¬ EndsInSemicolon s) :
    ∃ ts, kinds (tokenize s) = ts ++ [.finish] ∧ ts ≠ [] ∧
      ts.head? ≠ some (.symbol .rightParen) ∧ ts.head? ≠ some .fault ∧
      ∀ t more fuel, t.parts = true → 16 * ts.length + 47 ≤ fuel →
        Takes (Reader.expressions fuel) (SameExps [x]) (ts ++ t :: more) (t :: more) := by
  obtain ⟨ts, last, hts, hlast, hfinish⟩ := exists_kinds_tokensFrom (s.length + 1) 1 s
  have hts : kinds (tokenize s) = ts ++ [last] := hts
  obtain ⟨k, q₁, p, b, hk, hes, haccept, hend, hfault⟩ := h.exists_read hts
  have hdone : ts = [] → last = .finish := by
    rintro rfl
    rw [hts] at hfault
    exact hlast.resolve_right (by simpa using hfault)
  have hfront (t : Token) (more : List Token) (fuel : Nat) (hparts : t.parts = true)
      (hfuel : 16 * ts.length + 47 ≤ fuel) (q : Place) (hq : kinds q.tokens = ts ++ t :: more) :
      last = .finish ∧ ∃ es q', Reader.expressions fuel q = .ok (es, q') ∧ SameExps [x] es ∧
        kinds q'.tokens = t :: more := by
    let j : Juncture := ⟨last, t, more, hlast, hparts⟩
    have hleads : j.Leads ts ⟨0, tokenize s⟩ q := ⟨hts, hq, hdone, hfinish⟩
    obtain ⟨es, q', us, hes', hsame, hleads', hus, -⟩ :=
      (j.grammar (show k ≤ fuel by omega)).expressions ts _ q trivial hleads _ _ hes
    have hinside : .finish ∉ us := hleads'.noFinish
    cases us with
    | nil => exact ⟨hleads'.done rfl, es, q', hes', hsame, hleads'.ahead⟩
    | cons u us =>
      -- Reading stops inside the text only at a semicolon that is its last token.
      exfalso
      rcases accept_eq_ok haccept with rfl | ⟨hu, hp⟩
      · rw [← hend, hleads'.tokenAt_cons.1] at hinside
        simp at hinside
      · obtain rfl : u = .symbol .semicolon := hleads'.tokenAt_cons.1.symm.trans hu
        have hp : kinds p.tokens = us ++ [last] := by
          have htail := congrArg List.tail hleads'.alone
          rw [hp]
          simpa [kinds] using htail
        cases us with
        | nil =>
          obtain ⟨vs, rfl⟩ := hus
          have hfin : last = .finish := (Reader.tokenAt_of_kinds hp).symm.trans hend
          exact hsemicolon ⟨vs, by rw [hts, hfin, List.append_assoc]; rfl⟩
        | cons v us =>
          have hv : v = .finish := (Reader.tokenAt_of_kinds hp).symm.trans hend
          rw [hv] at hinside
          simp at hinside
  have hkinds (us : List Token) : kinds (us.map (⟨·, 0⟩)) = us := by
    simp [kinds, Function.comp_def]
  obtain rfl : last = .finish := (hfront .finish [] _ rfl le_rfl
    ⟨0, (ts ++ [Token.finish]).map (⟨·, 0⟩)⟩ (hkinds _)).1
  have hne : ts ≠ [] := by
    rintro rfl
    exact Juncture.eager_expressions k ⟨0, tokenize s⟩ _ (Reader.tokenAt_of_kinds hts) hes
  refine ⟨ts, hts, hne, ?_, ?_, fun t more fuel hparts hfuel q hq =>
    (hfront t more fuel hparts hfuel q hq).2⟩
  · intro hhead
    obtain ⟨us, rfl⟩ := List.head?_eq_some_iff.mp hhead
    cases k with
    | zero => cases hes
    | succ k =>
      rw [Reader.expressions] at hes
      obtain ⟨e, q₂, he, -⟩ := Reader.exists_of_bind hes
      exact expression_first he (Reader.tokenAt_of_kinds hts)
  · obtain ⟨t, us, rfl⟩ := List.exists_cons_of_ne_nil hne
    rw [hts] at hfault
    exact hfault

/-! ## The statement that writes an expression -/

section Write

variable {ts more : List Token} {t : Token} {x : Exp} {fuel : Nat}

/-- The tokens of the call that writes what other tokens express. -/
def writeTokens (ts : List Token) : List Token :=
  [.name "__write".toList, .symbol .leftParen] ++ ts ++ [.symbol .rightParen]

/-- A token that goes on with nothing ends what can be accessed or called. -/
theorem takes_suffixes_parts {e : Exp} (h : t.parts = true) :
    Takes (Reader.suffixes (fuel + 1) e) (· = e) (t :: more) (t :: more) := by
  refine Takes.current ?_
  cases t with
  | symbol s => cases s <;> first | exact Reader.takes_pure rfl | cases h
  | string b => cases h
  | _ => exact Reader.takes_pure rfl

/-- A variable that is called, with its arguments. -/
theorem takes_suffixes_call {s : Ident} {xs : List Exp}
    (hxs : Takes (Reader.arguments (fuel + 1)) (SameExps xs) (.symbol .leftParen :: ts)
      (t :: more)) (ht : t.parts = true) :
    Takes (Reader.suffixes (fuel + 2) (.var s)) (SameExp (.call 0 (.var s) xs))
      (.symbol .leftParen :: ts) (t :: more) := by
  refine Takes.current (Takes.line fun n => hxs.bind fun es hsame => ?_)
  refine (takes_suffixes_parts ht).mono ?_
  rintro _ rfl
  simp only [SameExp, SameExps, Exp.shape, Exp.shapes_eq_map] at hsame ⊢
  rw [hsame]

/-- **The call that writes an expression** is one statement. -/
theorem takes_write (hne : ts ≠ []) (hfirst : ts.head? ≠ some (.symbol .rightParen))
    (hfault : ts.head? ≠ some .fault)
    (hes : Takes (Reader.expressions fuel) (SameExps [x]) (ts ++ .symbol .rightParen :: t :: more)
      (.symbol .rightParen :: t :: more)) (hparts : t.parts = true) :
    Takes (Reader.statement (fuel + 4))
      (Option.Rel SameStat (some (.call (.call 0 (.var "__write".toList) [x]))))
      (writeTokens ts ++ t :: more) (t :: more) := by
  obtain ⟨u, us, rfl⟩ := List.exists_cons_of_ne_nil hne
  have hnext : (t :: more).head? ≠ some .fault := by
    rintro heq
    obtain rfl := Option.some.inj heq
    cases hparts
  have hargs : Takes (Reader.arguments (fuel + 1)) (SameExps [x])
      (.symbol .leftParen :: (u :: us ++ .symbol .rightParen :: t :: more)) (t :: more) := by
    refine Takes.current ((Reader.takes_advance (by simpa using hfault)).bind fun _ _ => ?_)
    refine (Reader.takes_accept_ne (by simpa using hfirst)).bind ?_
    rintro _ rfl
    refine hes.bind fun es hsame => (Reader.takes_expect hnext).bind fun _ _ => ?_
    exact Reader.takes_pure hsame
  have hcall : Takes (Reader.suffixes (fuel + 2) (.var "__write".toList))
      (SameExp (.call 0 (.var "__write".toList) [x]))
      (.symbol .leftParen :: (u :: us ++ .symbol .rightParen :: t :: more)) (t :: more) :=
    takes_suffixes_call hargs hparts
  have hsuffixed : Takes (Reader.suffixed (fuel + 3))
      (SameExp (.call 0 (.var "__write".toList) [x]))
      (.name "__write".toList :: .symbol .leftParen ::
        (u :: us ++ .symbol .rightParen :: t :: more)) (t :: more) :=
    Takes.current ((Reader.takes_advance (by simp)).bind fun _ _ => hcall)
  have htokens : writeTokens (u :: us) ++ t :: more = .name "__write".toList ::
      .symbol .leftParen :: (u :: us ++ .symbol .rightParen :: t :: more) := by
    simp [writeTokens]
  rw [htokens]
  refine Takes.line fun n => Takes.current (hsuffixed.bind fun e he => Takes.current ?_)
  have hiscall : e.isCall = true := by
    rw [← Exp.isCall_shape e, ← he]
    rfl
  have hstat : Takes (if e.isCall then return some (.call e) else Reader.stop)
      (Option.Rel SameStat (some (.call (.call 0 (.var "__write".toList) [x]))))
      (t :: more) (t :: more) := by
    rw [if_pos hiscall]
    refine Reader.takes_pure (.some ?_)
    simp only [SameStat, SameExp, Stat.shape] at he ⊢
    rw [he]
  cases t with
  | symbol s => cases s <;> first | exact hstat | cases hparts
  | _ => exact hstat

end Write

/-- **A text that no comment leaves open:** a closing parenthesis behind it is read as one. -/
def Closable (s : List Char) : Prop :=
  ∀ line ts, kinds (tokenize s) = ts ++ [.finish] →
    kinds (lex line (s ++ [')'])) = ts ++ [.symbol .rightParen, .finish]

/-- A text that does not end inside a comment. -/
theorem closable_of_not_endsInComment {s : List Char} (h : endsInComment s = false) :
    Closable s := by
  intro line ts hts
  obtain ⟨l, hl⟩ := @kinds_lex_append ')' (.inr rfl) s [] ts hts (fun _ => h) (by simp) line
  rw [hl]
  rfl

/-- **The statement that writes the value of an expression** is a block on its own, with that one
statement. -/
theorem complete_write {s : List Char} {x : Exp} (h : Expresses s x)
    (hsemicolon : ¬ EndsInSemicolon s) (hclose : Closable s) :
    ∃ b, Block.Complete ("  __write(".toList ++ (s ++ [')'])) b ∧
      SameBlock [.call (.call 0 (.var "__write".toList) [x])] b := by
  obtain ⟨ts, hts, hne, hfirst, hfault, hes⟩ := h.expressions hsemicolon
  have htokens : kinds (tokenize ("  __write(".toList ++ (s ++ [')']))) =
      writeTokens ts ++ [.finish] := by
    have hopen : ReadsAs Anything "  __write(".toList
        [.name "__write".toList, .symbol .leftParen] := readsAs_anything 4 fun _ _ _ => rfl
    rw [tokenize_eq_lex, hopen 1 _ trivial, kinds_append, hclose 1 ts hts]
    simp [kinds, writeTokens]
  have hlength : (tokenize ("  __write(".toList ++ (s ++ [')']))).length = ts.length + 4 := by
    have heq := congrArg List.length htokens
    simpa [kinds, writeTokens] using heq
  have hdepth : Reader.depth (tokenize ("  __write(".toList ++ (s ++ [')']))) =
      16 * ts.length + 75 + 4 + 1 := by
    rw [Reader.depth, hlength]
    omega
  have hstat := takes_write hne hfirst hfault
    (hes (.symbol .rightParen) [.finish] (16 * ts.length + 75) rfl (by omega)) rfl
  have hblock : Takes (Reader.block (16 * ts.length + 75 + 4 + 1))
      (SameBlock [.call (.call 0 (.var "__write".toList) [x])])
      (writeTokens ts ++ [.finish]) [.finish] :=
    Reader.takes_block_statement rfl hstat (Reader.takes_block_end rfl)
  obtain ⟨b, p, hb, hsame, hp⟩ :=
    hblock ⟨1, tokenize ("  __write(".toList ++ (s ++ [')']))⟩ htokens
  refine ⟨b, ⟨⟨Reader.lineAt p, ?_⟩, ?_, ?_⟩, hsame⟩
  · rw [Block.ofTokens_eq_ok_iff, hdepth, htokens]
    exact ⟨by simp [writeTokens], p, hb, Reader.tokenAt_of_kinds hp, rfl⟩
  · intro vs hvs
    have hlast := congrArg List.getLast? hsame
    rw [List.getLast?_map, List.getLast?_map, hvs] at hlast
    cases hlast
  · rw [htokens]
    simp [writeTokens]

end Stencil.Lua
