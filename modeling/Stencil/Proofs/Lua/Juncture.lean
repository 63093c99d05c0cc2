import Stencil.Proofs.Lua.Joining
import Stencil.Proofs.Lua.ProgramTree
import Stencil.Proofs.Lua.Shape
set_option autoImplicit false

/-!
# Where a text goes on

A reader of tokens can be compared with itself on two texts, one that ends at some place and one
that goes on there with a token that goes on with nothing before it. The comparison is made for one
token at a time, and put together along the reader.

## Main definitions

* `Stencil.Lua.Token.parts` — the tokens that go on with nothing.
* `Stencil.Lua.Juncture` — the place where a text ends on its own, and goes on elsewhere.
* `Stencil.Lua.Juncture.Follows` — a reader does in front of more what another one does on its own.
* `Stencil.Lua.Juncture.Eager` — a reader that fails at the end of a text.

## Main results

* `Stencil.Lua.Juncture.Follows.bind` — readers one after the other.
* `Stencil.Lua.Juncture.Follows.of_eager` — what fails at the end has to be compared before it only.
-/

namespace Stencil.Lua

/-! ## Where a text ends -/

/-- **Whether a token goes on with nothing** that can stand before it. -/
def Token.parts : Token → Bool
  | .name _ | .finish => true
  | .keyword k => k ≠ .and && k ≠ .or
  | .symbol s => s = .semicolon || s = .doubleColon || s = .rightParen
  | _ => false

/-- **The place where a text ends on its own, and goes on elsewhere:** the token at its end, which
may be a fault, and the tokens that it goes on with. -/
structure Juncture where
  last : Token
  next : Token
  more : List Token
  last_eq : last = .finish ∨ last = .fault
  parts : next.parts = true

namespace Juncture

variable (j : Juncture)

/-- **Two places with the same tokens up to the juncture.** Reading on its own does not come as far
as a fault. -/
structure Leads (ts : List Token) (p q : Place) : Prop where
  alone : kinds p.tokens = ts ++ [j.last]
  ahead : kinds q.tokens = ts ++ j.next :: j.more
  done : ts = [] → j.last = .finish
  noFinish : .finish ∉ ts

/-- Anywhere before the juncture, or at it. -/
def Anywhere (_ : List Token) : Prop := True

/-- Before the juncture. -/
def Before (ts : List Token) : Prop := ts ≠ []

/-- At the juncture. -/
def There (ts : List Token) : Prop := ts = []

/-- **A reader does in front of more what another one does on its own,** from the places of a kind
on: their results are related, and they take the same tokens, no fewer than `k`. -/
def Follows {α β : Type} (S : List Token → Prop) (k : Nat) (P : α → β → Prop) (x : Reader α)
    (y : Reader β) : Prop :=
  ∀ ts p q, S ts → j.Leads ts p q → ∀ a p', x p = .ok (a, p') →
    ∃ b q' us, y q = .ok (b, q') ∧ P a b ∧ j.Leads us p' q' ∧ us <:+ ts ∧
      us.length + k ≤ ts.length

variable {j} {α β γ δ : Type} {S T : List Token → Prop} {k : Nat} {P : α → β → Prop}
  {Q : γ → δ → Prop} {x : Reader α} {y : Reader β}

/-! ## Tokens at hand -/

/-- Before the juncture both places have the same token. -/
theorem Leads.tokenAt_cons {t : Token} {ts : List Token} {p q : Place} (h : j.Leads (t :: ts) p q) :
    Reader.tokenAt p = t ∧ Reader.tokenAt q = t := by
  have halone := h.alone
  have hahead := h.ahead
  unfold Reader.tokenAt
  cases hp : p.tokens with
  | nil => simp [hp, kinds] at halone
  | cons u us =>
    cases hq : q.tokens with
    | nil => simp [hq, kinds] at hahead
    | cons v vs =>
      rw [hp] at halone
      rw [hq] at hahead
      exact ⟨(List.cons.inj halone).1, (List.cons.inj hahead).1⟩

/-- At the juncture the text ends on its own. -/
theorem Leads.tokenAt_nil {p q : Place} (h : j.Leads [] p q) :
    Reader.tokenAt p = .finish ∧ Reader.tokenAt q = j.next := by
  have halone := h.alone
  have hahead := h.ahead
  unfold Reader.tokenAt
  cases hp : p.tokens with
  | nil => simp [hp, kinds] at halone
  | cons u us =>
    cases hq : q.tokens with
    | nil => simp [hq, kinds] at hahead
    | cons v vs =>
      rw [hp] at halone
      rw [hq] at hahead
      refine ⟨?_, (List.cons.inj hahead).1⟩
      exact (List.cons.inj halone).1.trans (h.done rfl)

/-- A fault is no token to go on with. -/
theorem exists_arrive_eq_error (n : Nat) {tokens : List Located}
    (h : (kinds tokens).head? = some .fault) : ∃ line, Reader.arrive n tokens = .error line := by
  cases tokens with
  | nil => cases h
  | cons t ts =>
    obtain ⟨t, line⟩ := t
    obtain rfl : t = .fault := Option.some.inj h
    exact ⟨line, rfl⟩

/-- Anything else is. -/
theorem arrive_of_ne_fault {n : Nat} {tokens : List Located}
    (h : (kinds tokens).head? ≠ some .fault) :
    Reader.arrive n tokens = .ok ⟨n, tokens⟩ := by
  cases tokens with
  | nil => rfl
  | cons t ts =>
    obtain ⟨t, line⟩ := t
    cases t with
    | fault => exact absurd rfl h
    | _ => rfl

/-- Going on over a token that is no fault. -/
theorem advance_eq_ok_iff {p p' : Place} :
    Reader.advance p = .ok ((), p') ↔
      p' = ⟨Reader.lineAt p, p.tokens.tail⟩ ∧ (kinds p.tokens.tail).head? ≠ some .fault := by
  unfold Reader.advance
  by_cases hfault : (kinds p.tokens.tail).head? = some .fault
  · obtain ⟨line, harrive⟩ := exists_arrive_eq_error (Reader.lineAt p) hfault
    simp only [harrive, Except.map, reduceCtorEq, hfault, ne_eq, not_true_eq_false, and_false]
  · simp only [arrive_of_ne_fault hfault, Except.map, Except.ok.injEq, Prod.mk.injEq, true_and,
      ne_eq, hfault, not_false_eq_true, and_true, eq_comm]

/-- **Going on to the next token.** -/
theorem follows_advance : j.Follows Before 1 (fun _ _ => True) Reader.advance Reader.advance := by
  intro ts p q hts h a p' hp
  obtain ⟨t, ts, rfl⟩ := List.exists_cons_of_ne_nil hts
  obtain ⟨rfl, hfault⟩ := advance_eq_ok_iff.mp hp
  have halone : kinds p.tokens.tail = ts ++ [j.last] := by
    have htail := congrArg List.tail h.alone
    simpa [kinds] using htail
  have hahead : kinds q.tokens.tail = ts ++ j.next :: j.more := by
    have htail := congrArg List.tail h.ahead
    simpa [kinds] using htail
  have hnext : j.next ≠ .fault := by
    intro heq
    have hparts := j.parts
    rw [heq] at hparts
    cases hparts
  refine ⟨(), ⟨Reader.lineAt q, q.tokens.tail⟩, ts, advance_eq_ok_iff.mpr ⟨rfl, ?_⟩, trivial, ?_,
    List.suffix_cons t ts, le_rfl⟩
  · rw [hahead]
    rw [halone] at hfault
    cases ts with
    | nil => simpa using hnext
    | cons u us => simpa using hfault
  · refine ⟨halone, hahead, ?_, fun hmem => h.noFinish (List.mem_cons_of_mem _ hmem)⟩
    rintro rfl
    rw [halone] at hfault
    exact j.last_eq.resolve_right (by simpa using hfault)

/-! ## Readers one after the other -/

/-- Results that do not matter. -/
theorem follows_pure {a : α} {b : β} (h : P a b) : j.Follows S 0 P (pure a) (pure b) := by
  rintro ts p q - hpq _ _ ⟨⟩
  exact ⟨b, q, ts, rfl, h, hpq, List.suffix_rfl, le_rfl⟩

/-- Where reading stops on its own, nothing is to be done. -/
theorem follows_stop : j.Follows S k P Reader.stop y := by
  rintro ts p q - - _ _ ⟨⟩

/-- Fewer places, fewer tokens. -/
theorem Follows.mono {l : Nat} (h : j.Follows S k P x y) (hS : ∀ ts, T ts → S ts) (hl : l ≤ k) :
    j.Follows T l P x y := by
  intro ts p q hT hpq a p' hx
  obtain ⟨b, q', us, hy, hab, hpq', hus, hlength⟩ := h ts p q (hS ts hT) hpq a p' hx
  exact ⟨b, q', us, hy, hab, hpq', hus, by omega⟩

/-- What is done from anywhere on is done from the places of a kind on. -/
theorem Follows.from (h : j.Follows Anywhere k P x y) : j.Follows S k P x y :=
  h.mono (fun _ _ => trivial) le_rfl

/-- The tokens that are taken need not be counted. -/
theorem Follows.uncounted (h : j.Follows S k P x y) : j.Follows S 0 P x y :=
  h.mono (fun _ h => h) (Nat.zero_le k)

/-- **Readers one after the other.** -/
theorem Follows.bind {f : α → Reader γ} {g : β → Reader δ} (h : j.Follows S k P x y)
    (hfg : ∀ a b, P a b → j.Follows Anywhere 0 Q (f a) (g b)) :
    j.Follows S k Q (x >>= f) (y >>= g) := by
  intro ts p q hS hpq c p' hx
  cases hxp : x p with
  | error e =>
    simp [Bind.bind, StateT.bind, Except.bind, hxp] at hx
  | ok r =>
    obtain ⟨a, p₁⟩ := r
    obtain ⟨b, q₁, us, hy, hab, hpq₁, hus, hlength⟩ := h ts p q hS hpq a p₁ hxp
    simp only [Bind.bind, StateT.bind, Except.bind, hxp] at hx
    obtain ⟨d, q', vs, hg, hcd, hpq', hvs, hlength'⟩ :=
      hfg a b hab us p₁ q₁ trivial hpq₁ c p' hx
    refine ⟨d, q', vs, ?_, hcd, hpq', hvs.trans hus, by omega⟩
    simp only [Bind.bind, StateT.bind, Except.bind, hy]
    exact hg

/-- Reading fails at the end of a text. -/
def Eager (x : Reader α) : Prop := ∀ p r, Reader.tokenAt p = .finish → x p ≠ .ok r

/-- At the end of a text, what is behind the next token fails. -/
theorem follows_advance_eager {f : Unit → Reader γ} {g : Reader δ}
    (h : j.Follows Before k Q (Reader.advance >>= f) g) (hf : Eager (f ())) :
    j.Follows Anywhere k Q (Reader.advance >>= f) g := by
  intro ts p q _ hpq c p' hx
  cases ts with
  | nil =>
    have htail : p.tokens.tail = [] := by
      have hlength := congrArg List.length hpq.alone
      simp only [kinds, List.length_map, List.nil_append, List.length_singleton] at hlength
      rw [← List.length_eq_zero_iff, List.length_tail, hlength]
    have hadvance : Reader.advance p = .ok ((), ⟨Reader.lineAt p, []⟩) := by
      rw [advance_eq_ok_iff, htail]
      simp [kinds]
    simp only [Bind.bind, StateT.bind, Except.bind, hadvance] at hx
    exact absurd hx (hf _ _ rfl)
  | cons t ts => exact h _ p q (List.cons_ne_nil t ts) hpq c p' hx

/-- **What fails at the end of a text** has to be followed only before the juncture. -/
theorem Follows.of_eager (h : j.Follows Before k P x y) (hx : Eager x) :
    j.Follows Anywhere k P x y := by
  intro ts p q _ hpq a p' hxp
  cases ts with
  | nil => exact absurd hxp (hx p _ hpq.tokenAt_nil.1)
  | cons t ts => exact h _ p q (List.cons_ne_nil t ts) hpq a p' hxp

/-- The line of the token before. -/
theorem follows_previousLine :
    j.Follows S 0 (fun _ _ => True) Reader.previousLine Reader.previousLine := by
  rintro ts p q - hpq _ _ ⟨⟩
  exact ⟨_, q, ts, rfl, trivial, hpq, List.suffix_rfl, le_rfl⟩

/-- The line of the present token, for what is read from it on. -/
theorem Follows.line {f : Nat → Reader γ} {g : Nat → Reader δ}
    (hfg : ∀ m n, j.Follows S k Q (f m) (g n)) :
    j.Follows S k Q (Reader.currentLine >>= f) (Reader.currentLine >>= g) := by
  intro ts p q hS hpq c p' hx
  exact hfg (Reader.lineAt p) (Reader.lineAt q) ts p q hS hpq c p' hx

/-- **The present token** before the juncture. -/
theorem Follows.current {f : Token → Reader γ} {g : Token → Reader δ}
    (hfg : ∀ t, j.Follows Before k Q (f t) (g t)) :
    j.Follows Before k Q (Reader.current >>= f) (Reader.current >>= g) := by
  intro ts p q hS hpq c p' hx
  obtain ⟨t, ts, rfl⟩ := List.exists_cons_of_ne_nil hS
  obtain ⟨hp, hq⟩ := hpq.tokenAt_cons
  have hx' : f t p = .ok (c, p') := by
    rw [← hp]
    exact hx
  obtain ⟨d, q', us, hg, h⟩ := hfg t _ p q hS hpq c p' hx'
  refine ⟨d, q', us, ?_, h⟩
  rw [← hg, ← hq]
  rfl

/-- **The present token,** which parts what follows from what is before, if it is behind the
juncture. -/
theorem Follows.current_parts {f : Token → Reader γ} {g : Token → Reader δ}
    (hfg : ∀ t, j.Follows Before k Q (f t) (g t))
    (hend : ∀ t, t.parts = true → j.Follows There k Q (f .finish) (g t)) :
    j.Follows Anywhere k Q (Reader.current >>= f) (Reader.current >>= g) := by
  intro ts p q _ hpq c p' hx
  cases ts with
  | nil =>
    obtain ⟨hp, hq⟩ := hpq.tokenAt_nil
    have hx' : f .finish p = .ok (c, p') := by
      rw [← hp]
      exact hx
    obtain ⟨d, q', us, hg, h⟩ := hend j.next j.parts _ p q rfl hpq c p' hx'
    refine ⟨d, q', us, ?_, h⟩
    rw [← hg, ← hq]
    rfl
  | cons t ts => exact Follows.current hfg _ p q (List.cons_ne_nil t ts) hpq c p' hx

/-! ## Reading fails at the end -/

/-- What fails at the end fails there with anything behind it. -/
theorem Eager.bind {f : α → Reader γ} (h : Eager x) : Eager (x >>= f) := by
  intro p r hp hx
  cases hxp : x p with
  | error e => simp [Bind.bind, StateT.bind, Except.bind, hxp] at hx
  | ok r => exact h p r hp hxp

/-- What is done at the end of a text for its present token. -/
theorem Eager.current {f : Token → Reader γ} (h : Eager (f .finish)) :
    Eager (Reader.current >>= f) := by
  intro p r hp hx
  refine h p r hp ?_
  rw [← hp]
  exact hx

/-- Stopping fails. -/
theorem eager_stop : Eager (Reader.stop : Reader α) := by
  rintro _ _ _ ⟨⟩

/-- The line of the present token, and what fails behind it. -/
theorem Eager.line {f : Nat → Reader γ} (h : ∀ n, Eager (f n)) :
    Eager (Reader.currentLine >>= f) := by
  intro p r hp hx
  exact h (Reader.lineAt p) p r hp hx

/-- A sign that is not at the end, and what fails behind it. -/
theorem Eager.accept {s : Symbol} {f : Bool → Reader γ} (h : Eager (f false)) :
    Eager (Reader.accept s >>= f) := by
  intro p r hp hx
  refine h p r hp ?_
  have haccept : Reader.accept s p = .ok (false, p) := by
    simp [Reader.accept, Bind.bind, StateT.bind, Except.bind, Reader.current, hp, pure,
      StateT.pure, Except.pure]
  simpa only [Bind.bind, StateT.bind, Except.bind, haccept] using hx

/-- A keyword that is not at the end, and what fails behind it. -/
theorem Eager.acceptWord {w : Keyword} {f : Bool → Reader γ} (h : Eager (f false)) :
    Eager (Reader.acceptWord w >>= f) := by
  intro p r hp hx
  refine h p r hp ?_
  have haccept : Reader.acceptWord w p = .ok (false, p) :=
    Reader.acceptWord_ne (by rw [hp]; simp)
  simpa only [Bind.bind, StateT.bind, Except.bind, haccept] using hx

/-- A sign that must be there is not at the end. -/
theorem eager_expect (s : Symbol) : Eager (Reader.expect s) := Eager.accept eager_stop

/-- A keyword that must be there is not at the end. -/
theorem eager_expectWord (w : Keyword) : Eager (Reader.expectWord w) := Eager.acceptWord eager_stop

/-- A name that must be there is not at the end. -/
theorem eager_name : Eager Reader.name := Eager.current eager_stop

/-! ## Signs, keywords and names -/

/-- Reading on behind a token, if it is the one that is asked for. -/
theorem follows_taken (q : Prop) [Decidable q] :
    j.Follows Before 0 Eq (if q then do Reader.advance; return true else return false)
      (if q then do Reader.advance; return true else return false) := by
  split
  · exact (follows_advance.bind fun _ _ _ => follows_pure rfl).uncounted
  · exact follows_pure rfl

/-- Whether a sign is present, before the juncture. -/
theorem follows_accept (s : Symbol) :
    j.Follows Before 0 Eq (Reader.accept s) (Reader.accept s) := by
  refine Follows.current fun t => ?_
  cases t with
  | symbol u => exact follows_taken (u = s)
  | _ => exact follows_pure rfl

/-- Whether a sign is present that does not part. -/
theorem follows_accept_of_parts {s : Symbol} (hs : Token.parts (.symbol s) = false) :
    j.Follows Anywhere 0 Eq (Reader.accept s) (Reader.accept s) := by
  refine Follows.current_parts (fun t => ?_) fun t ht => ?_
  · cases t with
    | symbol u => exact follows_taken (u = s)
    | _ => exact follows_pure rfl
  · cases t with
    | symbol u =>
      have hu : u ≠ s := by
        rintro rfl
        rw [ht] at hs
        cases hs
      dsimp only
      rw [if_neg hu]
      exact follows_pure rfl
    | _ => exact follows_pure rfl

/-- Whether a keyword is present, before the juncture. -/
theorem follows_acceptWord (w : Keyword) :
    j.Follows Before 0 Eq (Reader.acceptWord w) (Reader.acceptWord w) := by
  refine Follows.current fun t => ?_
  cases t with
  | keyword u => exact follows_taken (u = w)
  | _ => exact follows_pure rfl

/-- Two ways to go on after a question. -/
theorem follows_ite {f g : Reader α} {f' g' : Reader β} {P : α → β → Prop} (a b : Bool)
    (hab : a = b) (hyes : j.Follows S k P f f') (hno : j.Follows S k P g g') :
    j.Follows S k P (if a then f else g) (if b then f' else g') := by
  subst hab
  cases a with
  | true => exact hyes
  | false => exact hno

/-- A sign that must be there. -/
theorem follows_expect (s : Symbol) :
    j.Follows Anywhere 0 (fun _ _ => True) (Reader.expect s) (Reader.expect s) := by
  refine Follows.of_eager ((follows_accept s).bind fun a b hab => ?_) (eager_expect s)
  exact follows_ite a b hab (follows_pure trivial) follows_stop

/-- A keyword that must be there. -/
theorem follows_expectWord (w : Keyword) :
    j.Follows Anywhere 0 (fun _ _ => True) (Reader.expectWord w) (Reader.expectWord w) := by
  refine Follows.of_eager ((follows_acceptWord w).bind fun a b hab => ?_) (eager_expectWord w)
  exact follows_ite a b hab (follows_pure trivial) follows_stop

/-- A name that must be there. -/
theorem follows_name : j.Follows Anywhere 0 Eq Reader.name Reader.name := by
  refine Follows.of_eager (Follows.current fun t => ?_) eager_name
  cases t with
  | name s => exact (follows_advance.bind fun _ _ _ => follows_pure rfl).uncounted
  | _ => exact follows_stop

/-- Names parted by commas. -/
theorem follows_names {fuel fuel' : Nat} (h : fuel ≤ fuel') :
    j.Follows Anywhere 0 Eq (Reader.names fuel) (Reader.names fuel') := by
  induction fuel generalizing fuel' with
  | zero => exact follows_stop
  | succ fuel ih =>
    obtain ⟨fuel', rfl⟩ : ∃ n, fuel' = n + 1 := ⟨fuel' - 1, by omega⟩
    refine follows_name.bind fun n m hn => ?_
    subst hn
    refine (follows_accept_of_parts rfl).bind fun a b hab => follows_ite a b hab ?_ ?_
    · refine (ih (by omega)).bind fun ns ms hns => ?_
      subst hns
      exact follows_pure rfl
    · exact follows_pure rfl

/-- The attribute behind a name. -/
theorem follows_localAttribute :
    j.Follows Anywhere 0 Eq Reader.localAttribute Reader.localAttribute := by
  refine (follows_accept_of_parts rfl).bind fun a b hab => follows_ite a b hab ?_ ?_
  · refine follows_name.bind fun n m hn => ?_
    subst hn
    refine (follows_expect _).bind fun _ _ _ => ?_
    split
    · exact follows_pure rfl
    · split
      · exact follows_pure rfl
      · exact follows_stop
  · exact follows_pure rfl

/-- Names with attributes. -/
theorem follows_declared {fuel fuel' : Nat} (h : fuel ≤ fuel') (closed : Bool) :
    j.Follows Anywhere 0 Eq (Reader.declared fuel closed) (Reader.declared fuel' closed) := by
  induction fuel generalizing fuel' closed with
  | zero => exact follows_stop
  | succ fuel ih =>
    obtain ⟨fuel', rfl⟩ : ∃ n, fuel' = n + 1 := ⟨fuel' - 1, by omega⟩
    refine follows_name.bind fun n m hn => ?_
    subst hn
    refine follows_localAttribute.bind fun a b hab => ?_
    subst hab
    split
    · exact follows_stop
    · refine (follows_accept_of_parts rfl).bind fun a b hab => follows_ite a b hab ?_ ?_
      · refine (ih (by omega) _).bind fun ns ms hns => ?_
        subst hns
        exact follows_pure rfl
      · exact follows_pure rfl

/-- Names must be there. -/
theorem eager_declared (fuel : Nat) (closed : Bool) : Eager (Reader.declared fuel closed) := by
  cases fuel with
  | zero => exact eager_stop
  | succ fuel => exact eager_name.bind

/-- Parameters must be there, or the end of their list. -/
theorem eager_parameters (fuel : Nat) : Eager (Reader.parameters fuel) := by
  cases fuel with
  | zero => exact eager_stop
  | succ fuel => exact Eager.accept eager_name.bind

/-- Parameters up to the closing parenthesis. -/
theorem follows_parameters {fuel fuel' : Nat} (h : fuel ≤ fuel') :
    j.Follows Anywhere 0 Eq (Reader.parameters fuel) (Reader.parameters fuel') := by
  induction fuel generalizing fuel' with
  | zero => exact follows_stop
  | succ fuel ih =>
    obtain ⟨fuel', rfl⟩ : ∃ n, fuel' = n + 1 := ⟨fuel' - 1, by omega⟩
    refine (follows_accept_of_parts rfl).bind fun a b hab => follows_ite a b hab ?_ ?_
    · exact (follows_expect _).bind fun _ _ _ => follows_pure rfl
    · refine follows_name.bind fun n m hn => ?_
      subst hn
      refine (follows_accept_of_parts rfl).bind fun a b hab => follows_ite a b hab ?_ ?_
      · refine (ih (by omega)).bind fun ns ms hns => ?_
        subst hns
        exact follows_pure rfl
      · exact (follows_expect _).bind fun _ _ _ => follows_pure rfl

/-- The parameters behind an opening parenthesis. -/
theorem follows_parameterList {fuel fuel' : Nat} (h : fuel ≤ fuel') :
    j.Follows Anywhere 0 Eq (Reader.parameterList fuel) (Reader.parameterList fuel') := by
  refine (follows_expect _).bind fun _ _ _ => ?_
  refine Follows.of_eager ((follows_accept _).bind fun a b hab => follows_ite a b hab ?_ ?_)
    (Eager.accept (eager_parameters fuel))
  · exact follows_pure rfl
  · exact follows_parameters h

/-- Expressions that are the same without their lines. -/
def SameExp (a b : Exp) : Prop := a.shape = b.shape

/-- The fields behind the name of a function. -/
theorem follows_functionName {fuel fuel' : Nat} (h : fuel ≤ fuel') {a b : Exp}
    (hab : SameExp a b) :
    j.Follows Anywhere 0 (fun r s => SameExp r.1 s.1 ∧ r.2 = s.2) (Reader.functionName fuel a)
      (Reader.functionName fuel' b) := by
  induction fuel generalizing fuel' a b with
  | zero => exact follows_stop
  | succ fuel ih =>
    obtain ⟨fuel', rfl⟩ : ∃ n, fuel' = n + 1 := ⟨fuel' - 1, by omega⟩
    have hfield (m n : Nat) (x : Ident) : SameExp (.field m a x) (.field n b x) := by
      rw [SameExp, Exp.shape_field, Exp.shape_field, hab]
    refine Follows.line fun m n => ?_
    refine (follows_accept_of_parts rfl).bind fun c d hcd => follows_ite c d hcd ?_ ?_
    · refine follows_name.bind fun x y hxy => ?_
      subst hxy
      exact ih (by omega) (hfield m n x)
    · refine (follows_accept_of_parts rfl).bind fun c d hcd => follows_ite c d hcd ?_ ?_
      · refine follows_name.bind fun x y hxy => ?_
        subst hxy
        exact follows_pure ⟨hfield m n x, rfl⟩
      · exact follows_pure ⟨hab, rfl⟩

end Juncture

end Stencil.Lua
