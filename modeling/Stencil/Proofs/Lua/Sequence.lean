import Stencil.Proofs.Lua.Continuation
set_option autoImplicit false

/-!
# Statements one after the other

What a reader takes of the tokens at hand, whatever lines they have. A text that is a block on its
own is the beginning of a longer one.

## Main definitions

* `Stencil.Lua.Reader.Takes` — what a reader takes of tokens.
* `Stencil.Lua.Reader.Reads` — the statements that tokens are read as.
* `Stencil.Lua.Reader.Prepends` — tokens that are statements of their own in front of others.
* `Stencil.Lua.Block.Complete` — a text that is a block on its own, and that goes on with nothing
  before it and with nothing behind it.

## Main results

* `Stencil.Lua.Block.Complete.prepends` — such a text in front of other statements.
-/

namespace Stencil.Lua

open Juncture (SameBlock SameStat SameExp SameExps)

namespace Reader

variable {α β : Type} {x : Reader α} {P : α → Prop} {Q : β → Prop} {t : Token}
  {ts us rest : List Token} {fuel : Nat}

/-! ## What a reader takes -/

/-- **What a reader takes of tokens,** whatever their lines: a result of a kind, and what is
left. -/
def Takes (x : Reader α) (P : α → Prop) (ts rest : List Token) : Prop :=
  ∀ q, kinds q.tokens = ts → ∃ a q', x q = .ok (a, q') ∧ P a ∧ kinds q'.tokens = rest

/-- A result, and nothing taken. -/
theorem takes_pure {a : α} (h : P a) : Takes (pure a) P ts ts := fun q hq => ⟨a, q, rfl, h, hq⟩

/-- One after the other. -/
theorem Takes.bind {f : α → Reader β} (h : Takes x P ts us)
    (hf : ∀ a, P a → Takes (f a) Q us rest) : Takes (x >>= f) Q ts rest := by
  intro q hq
  obtain ⟨a, q₁, hx, ha, hq₁⟩ := h q hq
  obtain ⟨b, q₂, hb, hQ, hq₂⟩ := hf a ha q₁ hq₁
  refine ⟨b, q₂, ?_, hQ, hq₂⟩
  simp only [Bind.bind, StateT.bind, Except.bind, hx]
  exact hb

/-- A weaker result. -/
theorem Takes.mono {R : α → Prop} (h : Takes x P ts rest) (hPR : ∀ a, P a → R a) :
    Takes x R ts rest := by
  intro q hq
  obtain ⟨a, q', hx, ha, hq'⟩ := h q hq
  exact ⟨a, q', hx, hPR a ha, hq'⟩

/-- The present token. -/
theorem tokenAt_of_kinds {q : Place} (h : kinds q.tokens = t :: ts) : tokenAt q = t := by
  unfold tokenAt
  cases hq : q.tokens with
  | nil => simp [hq, kinds] at h
  | cons u us =>
    rw [hq] at h
    exact (List.cons.inj h).1

/-- What is done for the present token. -/
theorem Takes.current {f : Token → Reader β} (h : Takes (f t) Q (t :: ts) rest) :
    Takes (Reader.current >>= f) Q (t :: ts) rest := by
  intro q hq
  obtain ⟨b, q', hb, hQ, hq'⟩ := h q hq
  refine ⟨b, q', ?_, hQ, hq'⟩
  rw [← hb, ← tokenAt_of_kinds hq]
  rfl

/-- What is done whatever the line. -/
theorem Takes.line {f : Nat → Reader β} (h : ∀ n, Takes (f n) Q ts rest) :
    Takes (currentLine >>= f) Q ts rest := fun q hq => h (lineAt q) q hq

/-- One token. -/
theorem takes_advance (h : ts.head? ≠ some .fault) :
    Takes advance (fun _ => True) (t :: ts) ts := by
  intro q hq
  have htail : kinds q.tokens.tail = ts := by
    have := congrArg List.tail hq
    simpa [kinds] using this
  refine ⟨(), ⟨lineAt q, q.tokens.tail⟩, Juncture.advance_eq_ok_iff.mpr ⟨rfl, ?_⟩, trivial, htail⟩
  rwa [htail]

/-- A sign that is there. -/
theorem takes_accept {s : Symbol} (h : ts.head? ≠ some .fault) :
    Takes (accept s) (· = true) (.symbol s :: ts) ts := by
  refine Takes.current ?_
  dsimp only
  rw [if_pos rfl]
  exact (takes_advance h).bind fun _ _ => takes_pure rfl

/-- A sign that is not there. -/
theorem takes_accept_ne {s : Symbol} (h : t ≠ .symbol s) :
    Takes (accept s) (· = false) (t :: ts) (t :: ts) := by
  refine Takes.current ?_
  cases t with
  | symbol u =>
    dsimp only
    rw [if_neg fun heq => h (congrArg _ heq)]
    exact takes_pure rfl
  | _ => exact takes_pure rfl

/-- A keyword that is there. -/
theorem takes_acceptWord {w : Keyword} (h : ts.head? ≠ some .fault) :
    Takes (acceptWord w) (· = true) (.keyword w :: ts) ts := by
  refine Takes.current ?_
  dsimp only
  rw [if_pos rfl]
  exact (takes_advance h).bind fun _ _ => takes_pure rfl

/-- A sign that must be there, and is. -/
theorem takes_expect {s : Symbol} (h : ts.head? ≠ some .fault) :
    Takes (expect s) (fun _ => True) (.symbol s :: ts) ts := by
  refine (takes_accept h).bind ?_
  rintro _ rfl
  exact takes_pure trivial

/-- A keyword that must be there, and is. -/
theorem takes_expectWord {w : Keyword} (h : ts.head? ≠ some .fault) :
    Takes (expectWord w) (fun _ => True) (.keyword w :: ts) ts := by
  refine (takes_acceptWord h).bind ?_
  rintro _ rfl
  exact takes_pure trivial

/-- A name that must be there, and is. -/
theorem takes_name {s : Ident} (h : ts.head? ≠ some .fault) :
    Takes name (· = s) (.name s :: ts) ts :=
  Takes.current ((takes_advance h).bind fun _ _ => takes_pure rfl)

/-! ## Statements -/

/-- The end of a block. -/
theorem takes_block_end (h : endsBlock t = true) :
    Takes (block (fuel + 1)) (SameBlock []) (t :: ts) (t :: ts) := by
  rw [block]
  refine Takes.current ?_
  rw [if_pos h]
  exact takes_pure rfl

/-- A statement, and those behind it. -/
theorem takes_block_statement {s : Stat} {b : Block} (hbegins : begins t = true)
    (hs : Takes (statement fuel) (Option.Rel SameStat (some s)) (t :: ts) us)
    (hb : Takes (block fuel) (SameBlock b) us rest) :
    Takes (block (fuel + 1)) (SameBlock (s :: b)) (t :: ts) rest := by
  intro q hq
  have htoken := tokenAt_of_kinds hq
  obtain ⟨o, q₁, hs, hso, hq₁⟩ := hs q hq
  obtain ⟨c, q₂, hb, hbc, hq₂⟩ := hb q₁ hq₁
  cases hso with
  | @some _ s' hst =>
    refine ⟨s' :: c, q₂, ?_, ?_, hq₂⟩
    · rw [block_begins (by rwa [htoken])]
      simp only [Bind.bind, StateT.bind, Except.bind, hs, hb]
      rfl
    · simp only [SameBlock, SameStat, List.map_cons] at hst hbc ⊢
      rw [hst, hbc]

/-- **The statements that tokens are read as,** and what is left behind them, with fuel for all the
tokens. -/
def Reads (ts : List Token) (b : Block) (rest : List Token) : Prop :=
  ∀ fuel, 16 * ts.length ≤ fuel → Takes (block fuel) (SameBlock b) ts rest

/-- What was done one after the other. -/
theorem exists_of_bind {f : α → Reader β} {p p' : Place} {b : β}
    (h : (x >>= f) p = .ok (b, p')) : ∃ a p₁, x p = .ok (a, p₁) ∧ f a p₁ = .ok (b, p') := by
  simp only [Bind.bind, StateT.bind, Except.bind] at h
  cases hx : x p with
  | error e =>
    rw [hx] at h
    cases h
  | ok r =>
    rw [hx] at h
    exact ⟨r.1, r.2, rfl, h⟩

/-- What follows a `return` gives values. -/
theorem returned_yields {p p' : Place} {s : Stat} (h : returned fuel p = .ok (s, p')) :
    ∃ vs, s = .yields vs := by
  cases fuel with
  | zero => cases h
  | succ fuel =>
    rw [returned, current_bind] at h
    generalize tokenAt p = t at h
    split at h
    · obtain ⟨_, _, -, h⟩ := exists_of_bind h
      cases h
      exact ⟨[], rfl⟩
    · split at h
      · cases h
        exact ⟨[], rfl⟩
      · obtain ⟨es, _, -, h⟩ := exists_of_bind h
        obtain ⟨_, _, -, h⟩ := exists_of_bind h
        cases h
        exact ⟨es, rfl⟩

/-- The tokens that begin a call or a target. -/
theorem suffixed_first {p : Place} {r : Exp × Place} (h : suffixed fuel p = .ok r) :
    (∃ s, tokenAt p = .name s) ∨ tokenAt p = .symbol .leftParen := by
  cases fuel with
  | zero => cases h
  | succ fuel =>
    rw [suffixed, current_bind] at h
    generalize tokenAt p = t at h ⊢
    split at h
    · exact .inl ⟨_, rfl⟩
    · exact .inr rfl
    · cases h

/-- **The token that begins a statement** goes on with nothing before it, unless it is an opening
parenthesis. -/
theorem statement_first {p p' : Place} {o : Option Stat} (h : statement fuel p = .ok (o, p')) :
    (tokenAt p).parts = true ∨ tokenAt p = .symbol .leftParen := by
  cases fuel with
  | zero => cases h
  | succ fuel =>
    rw [statement, currentLine_bind, current_bind] at h
    generalize ht : tokenAt p = t at h ⊢
    split at h
    case h_12 =>
      obtain ⟨_, _, hsuffixed, -⟩ := exists_of_bind h
      rw [← ht]
      rcases suffixed_first hsuffixed with ⟨s, hs⟩ | hs
      · rw [hs]
        exact .inl rfl
      · exact .inr hs
    all_goals exact .inl rfl

/-- A block that begins with a `return` has nothing else. -/
theorem block_return {p p' : Place} {b : Block} (hp : tokenAt p = .keyword .«return»)
    (h : block (fuel + 1) p = .ok (b, p')) :
    ∃ p₁ s, advance p = .ok ((), p₁) ∧ returned fuel p₁ = .ok (s, p') ∧ b = [s] := by
  rw [block, current_bind, hp, if_neg (by simp [endsBlock])] at h
  obtain ⟨a, p₁, haccept, hrest⟩ := exists_of_bind h
  obtain ⟨rfl, hadvance⟩ : a = true ∧ advance p = .ok ((), p₁) := by
    rw [acceptWord, current_bind, hp] at haccept
    obtain ⟨_, p₂, hadvance, haccept⟩ := exists_of_bind haccept
    cases haccept
    exact ⟨rfl, hadvance⟩
  obtain ⟨s, p₂, hs, hrest⟩ := exists_of_bind hrest
  cases hrest
  exact ⟨p₁, s, hadvance, hs, rfl⟩

/-- **What a block begins with:** its end, a `return`, or a statement. -/
theorem block_cases {p p' : Place} {b : Block} (h : block (fuel + 1) p = .ok (b, p')) :
    (endsBlock (tokenAt p) = true ∧ b = [] ∧ p' = p) ∨
    (tokenAt p = .keyword .«return» ∧ ∃ vs, b = [.yields vs]) ∨
    (begins (tokenAt p) = true ∧ ∃ o p₁ b₁, statement fuel p = .ok (o, p₁) ∧
      block fuel p₁ = .ok (b₁, p') ∧ b = o.toList ++ b₁) := by
  by_cases hreturn : tokenAt p = .keyword .«return»
  · obtain ⟨p₁, s, -, hs, rfl⟩ := block_return hreturn h
    obtain ⟨vs, rfl⟩ := returned_yields hs
    exact .inr (.inl ⟨hreturn, vs, rfl⟩)
  · by_cases hend : endsBlock (tokenAt p) = true
    · refine .inl ⟨hend, ?_⟩
      rw [block, current_bind, if_pos hend] at h
      cases h
      exact ⟨rfl, rfl⟩
    · have hbegins : begins (tokenAt p) = true := by
        unfold begins
        split
        · contradiction
        · simpa using hend
      refine .inr (.inr ⟨hbegins, ?_⟩)
      rw [block_begins hbegins] at h
      obtain ⟨o, p₁, hs, h⟩ := exists_of_bind h
      cases o with
      | none => exact ⟨none, p₁, b, hs, h, rfl⟩
      | some s =>
        obtain ⟨b₁, p₂, hb, h⟩ := exists_of_bind h
        cases h
        exact ⟨some s, p₁, b₁, hs, hb, rfl⟩

/-- A block that begins with a given statement is it and the block behind it. -/
theorem block_of_begins {p p₁ p' : Place} {o : Option Stat} {b : Block}
    (h : begins (tokenAt p) = true) (hs : statement fuel p = .ok (o, p₁))
    (hb : block (fuel + 1) p = .ok (b, p')) :
    ∃ b₁, block fuel p₁ = .ok (b₁, p') ∧ b = o.toList ++ b₁ := by
  rcases block_cases hb with ⟨hends, -⟩ | ⟨htoken, -⟩ | ⟨-, o', p₂, b₁, hs', hb₁, hb⟩
  · unfold begins at h
    split at h
    · cases h
    · rw [hends] at h
      cases h
  · rw [htoken] at h
    cases h
  · obtain ⟨rfl, rfl⟩ := Prod.mk.inj (Except.ok.inj (hs.symm.trans hs'))
    exact ⟨b₁, hb₁, hb⟩

end Reader

namespace Juncture

open Reader (Takes)

variable {j : Juncture}

/-- What begins a statement on its own begins it in front of others. -/
theorem Leads.begins {ts : List Token} {p q : Place} (h : j.Leads ts p q)
    (hp : Reader.begins (Reader.tokenAt p) = true) : Reader.begins (Reader.tokenAt q) = true := by
  cases ts with
  | nil =>
    rw [h.tokenAt_nil.1] at hp
    cases hp
  | cons t ts => rwa [h.tokenAt_cons.2, ← h.tokenAt_cons.1]

/-- **A block on its own, in front of other statements.**

**Proof sketch.** Induction on the fuel. Each statement is read as it is on its own, and takes a
token at least; where the text ends on its own, what follows is read instead. -/
theorem block_append {b₂ : Block} {rest : List Token} {need fuel fuel' : Nat}
    (hnext : ∀ fuel, need ≤ fuel →
      Takes (Reader.block fuel) (SameBlock b₂) (j.next :: j.more) rest)
    (hfuel : fuel ≤ fuel') {ts : List Token} {p q : Place} (hpq : j.Leads ts p q)
    (hneed : need + ts.length ≤ fuel') {b : Block} {p' : Place}
    (hp : Reader.block fuel p = .ok (b, p')) (hend : Reader.tokenAt p' = .finish)
    (hreturn : ∀ vs, b.getLast? ≠ some (.yields vs)) :
    j.last = .finish ∧ ∃ c q', Reader.block fuel' q = .ok (c, q') ∧ SameBlock (b ++ b₂) c ∧
      kinds q'.tokens = rest := by
  induction fuel generalizing fuel' ts p q b with
  | zero => cases hp
  | succ fuel ih =>
    obtain ⟨fuel', rfl⟩ : ∃ n, fuel' = n + 1 := ⟨fuel' - 1, by omega⟩
    rcases Reader.block_cases hp with ⟨hends, rfl, rfl⟩ | ⟨-, vs, rfl⟩ | ⟨hbegins, o, p₁, b₁, hs,
      hb, rfl⟩
    · cases ts with
      | nil => exact ⟨hpq.done rfl, hnext _ (by omega) q hpq.ahead⟩
      | cons t ts =>
        -- The end of the program stands nowhere inside the text.
        have hfinish := hpq.noFinish
        rw [← hend, hpq.tokenAt_cons.1] at hfinish
        simp at hfinish
    · exact absurd rfl (hreturn vs)
    · obtain ⟨o', q₁, us, hs', hoo, hpq₁, -, hlength⟩ :=
        (grammar (show fuel ≤ fuel' by omega)).statement ts p q trivial hpq o p₁ hs
      have hbegins' := hpq.begins hbegins
      obtain ⟨hlast, c, q', hc, hbc, hq'⟩ := ih (show fuel ≤ fuel' by omega) hpq₁ (by omega) hb
        fun vs hvs => hreturn vs (by rw [List.getLast?_append, hvs]; rfl)
      refine ⟨hlast, o'.toList ++ c, q', ?_, ?_, hq'⟩
      · rw [Reader.block_begins hbegins']
        simp only [Bind.bind, StateT.bind, Except.bind, hs']
        cases o' with
        | none => exact hc
        | some s =>
          simp only [StateT.bind, hc]
          rfl
      · cases hoo with
        | none => exact hbc
        | some hst =>
          simp only [SameBlock, SameStat, Option.toList_some, List.cons_append, List.nil_append,
            List.map_cons] at hst hbc ⊢
          rw [hst, hbc]

/-- **What is read of a longer text begins with a block on its own.** Where the text ends on its
own, the reading goes on.

**Proof sketch.** Induction on the fuel. Each statement is read in the longer text as it is on its
own, and takes a token at least. -/
theorem block_starts {fuel fuel' : Nat} (hfuel : fuel ≤ fuel') {ts : List Token} {p q : Place}
    (hpq : j.Leads ts p q) {b c : Block} {p' r : Place}
    (hp : Reader.block fuel p = .ok (b, p')) (hend : Reader.tokenAt p' = .finish)
    (hreturn : ∀ vs, b.getLast? ≠ some (.yields vs)) (hq : Reader.block fuel' q = .ok (c, r)) :
    ∃ b' c' n q', c = b' ++ c' ∧ SameBlock b b' ∧ fuel' ≤ n + ts.length ∧
      kinds q'.tokens = j.next :: j.more ∧ Reader.block n q' = .ok (c', r) := by
  induction fuel generalizing fuel' ts p q b c with
  | zero => cases hp
  | succ fuel ih =>
    obtain ⟨fuel', rfl⟩ : ∃ n, fuel' = n + 1 := ⟨fuel' - 1, by omega⟩
    rcases Reader.block_cases hp with ⟨-, rfl, rfl⟩ | ⟨-, vs, rfl⟩ | ⟨hbegins, o, p₁, b₁, hs, hb,
      rfl⟩
    · cases ts with
      | nil => exact ⟨[], c, fuel' + 1, q, rfl, rfl, by simp, hpq.ahead, hq⟩
      | cons t ts =>
        -- The end of the program stands nowhere inside the text.
        have hfinish := hpq.noFinish
        rw [← hend, hpq.tokenAt_cons.1] at hfinish
        simp at hfinish
    · exact absurd rfl (hreturn vs)
    · obtain ⟨o', q₁, us, hs', hoo, hpq₁, -, hlength⟩ :=
        (grammar (show fuel ≤ fuel' by omega)).statement ts p q trivial hpq o p₁ hs
      have hbegins' := hpq.begins hbegins
      obtain ⟨c₁, hc₁, rfl⟩ := Reader.block_of_begins hbegins' hs' hq
      obtain ⟨b', c', n, q', rfl, hbb, hn, hq', hc'⟩ := ih (show fuel ≤ fuel' by omega) hpq₁ hb
        (fun vs hvs => hreturn vs (by rw [List.getLast?_append, hvs]; rfl)) hc₁
      refine ⟨o'.toList ++ b', c', n, q', by rw [List.append_assoc], ?_, by omega, hq', hc'⟩
      cases hoo with
      | none => exact hbb
      | some hst =>
        simp only [SameBlock, SameStat, Option.toList_some, List.cons_append, List.nil_append,
          List.map_cons] at hst hbb ⊢
        rw [hst, hbb]

end Juncture

/-! ## Texts -/

/-- What is read of a whole program. -/
theorem Block.ofTokens_eq_ok_iff {tokens : List Located} {b : Block} {line : Nat} :
    Block.ofTokens tokens = .ok (b, line) ↔ (kinds tokens).head? ≠ some .fault ∧
      ∃ p, Reader.block (Reader.depth tokens) ⟨1, tokens⟩ = .ok (b, p) ∧
        Reader.tokenAt p = .finish ∧ Reader.lineAt p = line := by
  have hprogram : (Reader.program (Reader.depth tokens)).run' ⟨1, tokens⟩ = .ok (b, line) ↔
      ∃ p, Reader.block (Reader.depth tokens) ⟨1, tokens⟩ = .ok (b, p) ∧
        Reader.tokenAt p = .finish ∧ Reader.lineAt p = line := by
    simp only [StateT.run', Reader.program, Bind.bind, StateT.bind, Except.bind]
    cases Reader.block (Reader.depth tokens) ⟨1, tokens⟩ with
    | error e => simp [Functor.map, Except.map]
    | ok r =>
      obtain ⟨c, p⟩ := r
      simp only [Reader.current]
      cases ht : Reader.tokenAt p with
      | finish =>
        simp [Functor.map, Except.map, StateT.bind, Reader.currentLine, pure, StateT.pure,
          Except.pure, Bind.bind, Except.bind, ht]
      | _ => simp [Functor.map, Except.map, Reader.stop, ht]
  by_cases hfault : (kinds tokens).head? = some .fault
  · obtain ⟨l, harrive⟩ := Juncture.exists_arrive_eq_error 1 hfault
    simp [hfault, Block.ofTokens, harrive, Bind.bind, Except.bind]
  · simp only [hfault, ne_eq, not_false_eq_true, true_and, Block.ofTokens,
      Juncture.arrive_of_ne_fault hfault]
    exact hprogram

namespace Reader

variable {ts us : List Token} {b c : Block}

/-- **A whole program,** from its tokens. -/
theorem Reads.ofTokens {tokens : List Located} (h : Reads (kinds tokens) b [.finish])
    (hfault : (kinds tokens).head? ≠ some .fault) :
    ∃ c line, Block.ofTokens tokens = .ok (c, line) ∧ SameBlock b c := by
  have hlength : (kinds tokens).length = tokens.length := List.length_map _
  obtain ⟨c, p, hc, hbc, hp⟩ := h (depth tokens) (by rw [depth, hlength]; omega) ⟨1, tokens⟩ rfl
  exact ⟨c, lineAt p, Block.ofTokens_eq_ok_iff.mpr ⟨hfault, p, hc, tokenAt_of_kinds hp, rfl⟩, hbc⟩

/-- **Tokens in front of other statements,** which begin with a token that goes on with nothing.
They begin with such a one too, if there are any. -/
structure Prepends (ts : List Token) (b : Block) : Prop where
  parts : ∀ t ∈ ts.head?, t.parts = true
  reads : ∀ t more b₂ rest, t.parts = true → more ≠ [] → Reads (t :: more) b₂ rest →
    Reads (ts ++ t :: more) (b ++ b₂) rest

namespace Prepends

/-- No tokens. -/
theorem nil : Prepends [] [] := ⟨by simp, fun _ _ _ _ _ _ h => h⟩

/-- One after the other. -/
theorem append (h : Prepends ts b) (h' : Prepends us c) : Prepends (ts ++ us) (b ++ c) := by
  refine ⟨?_, ?_⟩
  · intro t ht
    rw [List.head?_append] at ht
    cases hts : ts.head? with
    | none =>
      rw [hts] at ht
      exact h'.parts t ht
    | some u =>
      rw [hts] at ht
      obtain rfl : u = t := Option.some.inj ht
      exact h.parts u hts
  · intro t more b₂ rest ht hmore hnext
    have hbehind := h'.reads t more b₂ rest ht hmore hnext
    rw [List.append_assoc, List.append_assoc]
    cases us with
    | nil => exact h.reads t more (c ++ b₂) rest ht hmore hbehind
    | cons u us =>
      exact h.reads u (us ++ t :: more) (c ++ b₂) rest (h'.parts u rfl) (by simp) hbehind

/-- Many one after the other. -/
theorem flatten {tss : List (List Token)} {bs : List Block} (h : List.Forall₂ Prepends tss bs) :
    Prepends tss.flatten bs.flatten := by
  induction h with
  | nil => exact nil
  | cons hts _ ih => exact hts.append ih

end Prepends

/-- **What is read of tokens and of others behind them begins with statements,** if the others begin
with a token that goes on with nothing. -/
structure Starts (ts : List Token) (b : Block) : Prop where
  parts : ∀ t ∈ ts.head?, t.parts = true
  starts : ∀ t more fuel q c r, t.parts = true → 16 * ts.length + 32 ≤ fuel →
    kinds q.tokens = ts ++ t :: more → block fuel q = .ok (c, r) →
    ∃ b' c' n q', c = b' ++ c' ∧ SameBlock b b' ∧ fuel ≤ n + ts.length ∧
      kinds q'.tokens = t :: more ∧ block n q' = .ok (c', r)

namespace Starts

/-- No tokens. -/
theorem nil : Starts [] [] :=
  ⟨by simp, fun _ _ fuel q c _ _ _ hq hc => ⟨[], c, fuel, q, rfl, rfl, by simp, hq, hc⟩⟩

/-- One after the other. -/
theorem append (h : Starts ts b) (h' : Starts us c) : Starts (ts ++ us) (b ++ c) := by
  refine ⟨?_, ?_⟩
  · intro t ht
    cases ts with
    | nil => exact h'.parts t ht
    | cons u ts => exact h.parts t ht
  · intro t more fuel q d r ht hfuel hq hd
    obtain ⟨u, us', hus, hu⟩ : ∃ u us', us ++ t :: more = u :: us' ∧ u.parts = true := by
      cases us with
      | nil => exact ⟨t, more, rfl, ht⟩
      | cons u us => exact ⟨u, us ++ t :: more, rfl, h'.parts u rfl⟩
    rw [List.length_append] at hfuel
    rw [List.append_assoc, hus] at hq
    obtain ⟨b', d₁, n₁, q₁, rfl, hb, hn₁, hq₁, hd₁⟩ := h.starts u us' fuel q d r hu (by omega) hq hd
    rw [← hus] at hq₁
    obtain ⟨c', d₂, n₂, q₂, rfl, hc, hn₂, hq₂, hd₂⟩ :=
      h'.starts t more n₁ q₁ d₁ r ht (by omega) hq₁ hd₁
    refine ⟨b' ++ c', d₂, n₂, q₂, by rw [List.append_assoc], ?_, ?_, hq₂, hd₂⟩
    · simp only [SameBlock, List.map_append] at hb hc ⊢
      rw [hb, hc]
    · rw [List.length_append]
      omega

/-- Many one after the other. -/
theorem flatten {tss : List (List Token)} {bs : List Block} (h : List.Forall₂ Starts tss bs) :
    Starts tss.flatten bs.flatten := by
  induction h with
  | nil => exact nil
  | cons hts _ ih => exact hts.append ih

end Starts

/-- The tokens of a program, and the statements that are read of them. -/
theorem prepends_of_ofTokens {tokens : List Located} {last : Token} {line : Nat}
    (hts : kinds tokens = ts ++ [last]) (hlast : last = .finish ∨ last = .fault)
    (hfinish : .finish ∉ ts) (hread : Block.ofTokens tokens = .ok (b, line))
    (hreturn : ∀ vs, b.getLast? ≠ some (.yields vs))
    (hparen : ts.head? ≠ some (.symbol .leftParen)) : last = .finish ∧ Prepends ts b := by
  obtain ⟨hfault, p, hblock, hend, -⟩ := Block.ofTokens_eq_ok_iff.mp hread
  have hdone : ts = [] → last = .finish := by
    rintro rfl
    rw [hts] at hfault
    exact hlast.resolve_right (by simpa using hfault)
  have hlength : tokens.length = ts.length + 1 := by
    have heq := congrArg List.length hts
    simpa [kinds] using heq
  have hdepth : Reader.depth tokens = 16 * ts.length + 32 := by
    rw [Reader.depth, hlength]
    omega
  -- What is read in front of given tokens, and that there is no fault.
  have hfront (t : Token) (more : List Token) (b₂ : Block) (rest : List Token)
      (hparts : t.parts = true) (hmore : more ≠ []) (hnext : Reads (t :: more) b₂ rest)
      (fuel : Nat) (hfuel : 16 * (ts ++ t :: more).length ≤ fuel) (q : Place)
      (hq : kinds q.tokens = ts ++ t :: more) :
      last = .finish ∧ ∃ c q', Reader.block fuel q = .ok (c, q') ∧ SameBlock (b ++ b₂) c ∧
        kinds q'.tokens = rest := by
    have hpos := List.length_pos_iff.mpr hmore
    simp only [List.length_append, List.length_cons] at hfuel
    refine Juncture.block_append (j := ⟨last, t, more, hlast, hparts⟩) hnext ?_
      ⟨hts, hq, hdone, hfinish⟩ ?_ hblock hend hreturn
    · omega
    · rw [List.length_cons]
      omega
  have hend' : Reads [.keyword .«end», .finish] [] [.keyword .«end», .finish] := by
    intro fuel hfuel
    obtain ⟨fuel, rfl⟩ : ∃ n, fuel = n + 1 := ⟨fuel - 1, by simp at hfuel; omega⟩
    exact takes_block_end rfl
  have hkinds (us : List Token) : kinds (us.map (⟨·, 0⟩)) = us := by
    simp [kinds, Function.comp_def]
  refine ⟨(hfront _ _ [] _ rfl (List.cons_ne_nil _ _) hend' _ le_rfl
    ⟨1, (ts ++ [Token.keyword .«end», .finish]).map (⟨·, 0⟩)⟩ (hkinds _)).1, ?_, ?_⟩
  · intro t ht
    obtain ⟨us, rfl⟩ := List.head?_eq_some_iff.mp ht
    have htoken : tokenAt ⟨1, tokens⟩ = t := tokenAt_of_kinds hts
    rw [hdepth] at hblock
    rcases block_cases hblock with ⟨-, -, rfl⟩ | ⟨-, vs, rfl⟩ | ⟨-, o, p₁, b₁, hs, -, -⟩
    · rw [htoken] at hend
      rw [hend] at hfinish
      simp at hfinish
    · exact absurd rfl (hreturn vs)
    · have hfirst := statement_first hs
      rw [htoken] at hfirst
      refine hfirst.resolve_right ?_
      rintro rfl
      exact hparen rfl
  · intro t more b₂ rest hparts hmore hnext fuel hfuel q hq
    exact (hfront t more b₂ rest hparts hmore hnext fuel hfuel q hq).2

end Reader

/-- **A text that is a block on its own,** does not end in a `return`, and does not begin with an
opening parenthesis. -/
structure Block.Complete (s : List Char) (b : Block) : Prop where
  reads : ∃ line, Block.ofTokens (tokenize s) = .ok (b, line)
  noReturn : ∀ vs, b.getLast? ≠ some (.yields vs)
  noParen : (kinds (tokenize s)).head? ≠ some (.symbol .leftParen)

/-- **A complete block in front of other statements.**

**Proof sketch.** The place behind the text is a juncture. The first token begins a statement, and
is no parenthesis. -/
theorem Block.Complete.prepends {s : List Char} {b : Block} (h : Complete s b) :
    ∃ ts, kinds (tokenize s) = ts ++ [.finish] ∧ Reader.Prepends ts b := by
  obtain ⟨line, hread⟩ := h.reads
  obtain ⟨ts, last, hts, hlast, hfinish⟩ := exists_kinds_tokensFrom (s.length + 1) 1 s
  have hts : kinds (tokenize s) = ts ++ [last] := hts
  have hparen : ts.head? ≠ some (.symbol .leftParen) := by
    intro hhead
    obtain ⟨us, rfl⟩ := List.head?_eq_some_iff.mp hhead
    exact h.noParen (by rw [hts]; rfl)
  obtain ⟨rfl, hprepends⟩ :=
    Reader.prepends_of_ofTokens hts hlast hfinish hread h.noReturn hparen
  exact ⟨ts, hts, hprepends⟩

end Stencil.Lua
