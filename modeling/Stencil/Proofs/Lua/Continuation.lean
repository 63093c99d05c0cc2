import Stencil.Proofs.Lua.Juncture
set_option autoImplicit false

/-!
# Reading a text in front of another

A text that is read on its own is read in the same way in front of other text, if that begins with
a token that goes on with nothing that can stand before it. The trees differ only in their lines.

## Main definitions

* `Stencil.Lua.Juncture.inner` — a reader inside a text.
* `Stencil.Lua.Juncture.Grammar` — the grammar in front of more does what it does on its own.

## Main results

* `Stencil.Lua.Juncture.Grammar.succ` — one step of the grammar.
* `Stencil.Lua.Juncture.grammar` — the whole grammar.
-/

namespace Stencil.Lua.Juncture

variable {j : Juncture} {α β γ δ : Type} {S T : List Token → Prop} {k : Nat} {P : α → β → Prop}
  {Q : γ → δ → Prop} {x : Reader α} {y : Reader β}

/-! ## The grammar -/

/-- Items of tables that are the same without their lines. -/
def SameField (a b : Field) : Prop := a.shape = b.shape

/-- Statements that are the same without their lines. -/
def SameStat (a b : Stat) : Prop := a.shape = b.shape

/-- Expressions, one by one the same without their lines. -/
def SameExps (as bs : List Exp) : Prop := as.map Exp.shape = bs.map Exp.shape

/-- Items of tables, one by one the same without their lines. -/
def SameFields (as bs : List Field) : Prop := as.map Field.shape = bs.map Field.shape

/-- Statements, one by one the same without their lines. -/
def SameBlock (as bs : Block) : Prop := as.map Stat.shape = bs.map Stat.shape

/-- **A reader inside a text,** which does not come to the end of it. -/
def inner (x : Reader α) : Reader α := fun p =>
  match x p with
  | .error e => .error e
  | .ok (a, p') => match Reader.tokenAt p' with
    | .finish => .error (Reader.lineAt p')
    | _ => .ok (a, p')

/-- **The grammar in front of more** does what it does on its own, with no less fuel. A block ends
inside the text. -/
structure Grammar (j : Juncture) (fuel fuel' : Nat) : Prop where
  expression : ∀ limit, j.Follows Anywhere 0 SameExp (Reader.expression fuel limit)
    (Reader.expression fuel' limit)
  operators : ∀ limit a b, SameExp a b → j.Follows Anywhere 0 SameExp
    (Reader.operators fuel limit a) (Reader.operators fuel' limit b)
  simple : j.Follows Anywhere 0 SameExp (Reader.simple fuel) (Reader.simple fuel')
  suffixed : j.Follows Anywhere 1 SameExp (Reader.suffixed fuel) (Reader.suffixed fuel')
  suffixes : ∀ a b, SameExp a b → j.Follows Anywhere 0 SameExp (Reader.suffixes fuel a)
    (Reader.suffixes fuel' b)
  arguments : j.Follows Anywhere 0 SameExps (Reader.arguments fuel) (Reader.arguments fuel')
  expressions : j.Follows Anywhere 0 SameExps (Reader.expressions fuel) (Reader.expressions fuel')
  tableItems : j.Follows Anywhere 0 SameExp (Reader.tableItems fuel) (Reader.tableItems fuel')
  fields : j.Follows Anywhere 0 SameFields (Reader.fields fuel) (Reader.fields fuel')
  field : j.Follows Anywhere 0 SameField (Reader.field fuel) (Reader.field fuel')
  functionBody : ∀ isMethod, j.Follows Anywhere 0 SameExp (Reader.functionBody fuel isMethod)
    (Reader.functionBody fuel' isMethod)
  block : j.Follows Anywhere 0 SameBlock (inner (Reader.block fuel)) (Reader.block fuel')
  returned : j.Follows Anywhere 0 SameStat (inner (Reader.returned fuel)) (Reader.returned fuel')
  statement : j.Follows Anywhere 1 (Option.Rel SameStat) (Reader.statement fuel)
    (Reader.statement fuel')
  assignment : ∀ as bs a b, SameExps as bs → SameExp a b → j.Follows Anywhere 0 SameStat
    (Reader.assignment fuel as a) (Reader.assignment fuel' bs b)
  branches : j.Follows Anywhere 0 SameStat (Reader.branches fuel) (Reader.branches fuel')
  loop : ∀ m n, j.Follows Anywhere 0 SameStat (Reader.loop fuel m) (Reader.loop fuel' n)

/-! ### What must be there -/

theorem eager_suffixed (fuel : Nat) : Eager (Reader.suffixed fuel) := by
  cases fuel with
  | zero => exact eager_stop
  | succ fuel => exact Eager.current eager_stop

theorem eager_simple (fuel : Nat) : Eager (Reader.simple fuel) := by
  cases fuel with
  | zero => exact eager_stop
  | succ fuel => exact Eager.current (eager_suffixed fuel)

theorem eager_expression (fuel limit : Nat) : Eager (Reader.expression fuel limit) := by
  cases fuel with
  | zero => exact eager_stop
  | succ fuel => exact Eager.current (eager_simple fuel).bind

theorem eager_expressions (fuel : Nat) : Eager (Reader.expressions fuel) := by
  cases fuel with
  | zero => exact eager_stop
  | succ fuel => exact (eager_expression fuel 0).bind

theorem eager_arguments (fuel : Nat) : Eager (Reader.arguments fuel) := by
  cases fuel with
  | zero => exact eager_stop
  | succ fuel => exact Eager.current eager_stop

theorem eager_field (fuel : Nat) : Eager (Reader.field fuel) := by
  cases fuel with
  | zero => exact eager_stop
  | succ fuel =>
    intro p r hp hx
    rw [Reader.field] at hx
    dsimp only at hx
    unfold Reader.tokenAt at hp
    split at hx
    · rename_i heq
      simp [heq] at hp
    · rename_i heq
      simp [heq] at hp
    · exact (eager_expression fuel 0).bind p r hp hx

theorem eager_statement (fuel : Nat) : Eager (Reader.statement fuel) := by
  cases fuel with
  | zero => exact eager_stop
  | succ fuel => exact Eager.line fun _ => Eager.current (eager_suffixed fuel).bind

/-! ### Inside a text -/

/-- What is inside a text fails at the end of it, if nothing is read. -/
theorem eager_inner_pure (a : α) : Eager (inner (pure a)) := by
  intro p r hp hx
  simp [inner, pure, StateT.pure, Except.pure, hp] at hx

/-- A text behind which something must be there ends inside. -/
theorem inner_bind (x : Reader α) (f : α → Reader γ) :
    inner (x >>= f) = x >>= fun a => inner (f a) := by
  funext p
  simp only [inner, Bind.bind, StateT.bind, Except.bind]
  cases x p <;> rfl

/-- What is made of a text inside. -/
theorem inner_map (x : Reader α) (f : α → γ) :
    inner (x >>= fun a => pure (f a)) = inner x >>= fun a => pure (f a) := by
  funext p
  simp only [inner, Bind.bind, StateT.bind, Except.bind]
  cases hx : x p with
  | error e => rfl
  | ok r =>
    obtain ⟨a, p'⟩ := r
    dsimp only [pure, StateT.pure, Except.pure]
    cases Reader.tokenAt p' <;> rfl

/-- Results inside a text that do not matter. -/
theorem follows_inner_pure {a : α} {b : β} (h : P a b) :
    j.Follows S 0 P (inner (pure a)) (pure b) := by
  rintro ts p q - hpq c p' hx
  simp only [inner, pure, StateT.pure, Except.pure] at hx
  split at hx
  · cases hx
  · cases hx
    exact ⟨b, q, ts, rfl, h, hpq, List.suffix_rfl, le_rfl⟩

/-- **What is inside a text,** and what must be there behind it. -/
theorem Follows.bind_inner {f : α → Reader γ} {g : β → Reader δ}
    (h : j.Follows S k P (inner x) y) (hf : ∀ a, Eager (f a))
    (hfg : ∀ a b, P a b → j.Follows Anywhere 0 Q (f a) (g b)) :
    j.Follows S k Q (x >>= f) (y >>= g) := by
  intro ts p q hS hpq c p' hx
  refine h.bind hfg ts p q hS hpq c p' ?_
  rw [← hx]
  simp only [inner, Bind.bind, StateT.bind, Except.bind] at hx ⊢
  cases hxp : x p with
  | error e => rfl
  | ok r =>
    obtain ⟨a, p₁⟩ := r
    rw [hxp] at hx
    dsimp only at hx ⊢
    cases htoken : Reader.tokenAt p₁ with
    | finish => exact absurd hx (hf a p₁ _ htoken)
    | _ => rfl

/-! ### One step of the grammar -/

namespace Grammar

variable {fuel fuel' : Nat}

/-- With no fuel nothing is read. -/
theorem zero (fuel' : Nat) : Grammar j 0 fuel' where
  expression _ := follows_stop
  operators _ _ _ _ := follows_stop
  simple := follows_stop
  suffixed := follows_stop
  suffixes _ _ _ := follows_stop
  arguments := follows_stop
  expressions := follows_stop
  tableItems := follows_stop
  fields := follows_stop
  field := follows_stop
  functionBody _ := follows_stop
  block := by
    rintro ts p q - - _ _ ⟨⟩
  returned := by
    rintro ts p q - - _ _ ⟨⟩
  statement := follows_stop
  assignment _ _ _ _ _ _ := follows_stop
  branches := follows_stop
  loop _ _ := follows_stop

theorem expression_succ (h : Grammar j fuel fuel') (limit : Nat) :
    j.Follows Anywhere 0 SameExp (Reader.expression (fuel + 1) limit)
      (Reader.expression (fuel' + 1) limit) := by
  refine Follows.of_eager (Follows.current fun t => ?_) (eager_expression (fuel + 1) limit)
  cases Reader.unaryOp? t with
  | some op =>
    refine Follows.line fun m n => (follows_advance.bind fun _ _ _ => ?_).uncounted
    refine (h.expression _).bind fun a b hab => h.operators limit _ _ ?_
    simp only [SameExp, Exp.shape] at hab ⊢
    rw [hab]
  | none => exact h.simple.from.bind fun a b hab => h.operators limit a b hab

theorem operators_succ (h : Grammar j fuel fuel') (limit : Nat) {a b : Exp} (hab : SameExp a b) :
    j.Follows Anywhere 0 SameExp (Reader.operators (fuel + 1) limit a)
      (Reader.operators (fuel' + 1) limit b) := by
  refine Follows.current_parts (fun t => ?_) fun t ht => ?_
  · cases Reader.binaryOp? t with
    | some op =>
      dsimp only
      split
      · refine Follows.line fun m n => (follows_advance.bind fun _ _ _ => ?_).uncounted
        refine (h.expression _).bind fun c d hcd => h.operators limit _ _ ?_
        simp only [SameExp, Exp.shape] at hab hcd ⊢
        rw [hab, hcd]
      · exact follows_pure hab
    | none => exact follows_pure hab
  · have hnone : Reader.binaryOp? t = none := by
      cases t with
      | symbol s => cases s <;> first | rfl | cases ht
      | keyword w => cases w <;> first | rfl | cases ht
      | _ => rfl
    rw [hnone]
    exact follows_pure hab

/-- One token, and its result. -/
theorem follows_token {a : α} {b : β} (h : P a b) :
    j.Follows Before 0 P (do Reader.advance; return a) (do Reader.advance; return b) :=
  (follows_advance.bind fun _ _ _ => follows_pure h).uncounted

theorem simple_succ (h : Grammar j fuel fuel') :
    j.Follows Anywhere 0 SameExp (Reader.simple (fuel + 1)) (Reader.simple (fuel' + 1)) := by
  refine Follows.of_eager (Follows.current fun t => ?_) (eager_simple (fuel + 1))
  split
  case h_6 => exact Follows.line fun m n => follows_token rfl
  case h_7 => exact h.tableItems.from
  case h_8 => exact (follows_advance.bind fun _ _ _ => h.functionBody false).uncounted
  case h_9 => exact h.suffixed.from.uncounted
  all_goals exact follows_token rfl

theorem suffixed_succ (h : Grammar j fuel fuel') :
    j.Follows Anywhere 1 SameExp (Reader.suffixed (fuel + 1)) (Reader.suffixed (fuel' + 1)) := by
  refine Follows.of_eager (Follows.current fun t => ?_) (eager_suffixed (fuel + 1))
  split
  · exact follows_advance.bind fun _ _ _ => h.suffixes _ _ rfl
  · refine follows_advance.bind fun _ _ _ => (h.expression 0).bind fun a b hab => ?_
    refine (follows_expect _).bind fun _ _ _ => h.suffixes _ _ ?_
    simp only [SameExp, Exp.shape] at hab ⊢
    rw [hab]
  · exact follows_stop

theorem suffixes_succ (h : Grammar j fuel fuel') {a b : Exp} (hab : SameExp a b) :
    j.Follows Anywhere 0 SameExp (Reader.suffixes (fuel + 1) a)
      (Reader.suffixes (fuel' + 1) b) := by
  have hcall (m n : Nat) : j.Follows Anywhere 0 SameExp
      (do
        let args ← Reader.arguments fuel
        Reader.suffixes fuel (.call m a args))
      (do
        let args ← Reader.arguments fuel'
        Reader.suffixes fuel' (.call n b args)) := by
    refine h.arguments.bind fun c d hcd => h.suffixes _ _ ?_
    simp only [SameExp, SameExps, Exp.shape, Exp.shapes_eq_map] at hab hcd ⊢
    rw [hab, hcd]
  refine Follows.current_parts (fun t => ?_) fun t ht => ?_
  · split
    · refine (follows_advance.bind fun _ _ _ => follows_name.bind fun x y hxy => ?_).uncounted
      subst hxy
      refine follows_previousLine.bind fun m n _ => h.suffixes _ _ ?_
      rw [SameExp, Exp.shape_field, Exp.shape_field, hab]
    · refine (follows_advance.bind fun _ _ _ => (h.expression 0).bind fun c d hcd => ?_).uncounted
      refine (follows_expect _).bind fun _ _ _ => ?_
      refine follows_previousLine.bind fun m n _ => h.suffixes _ _ ?_
      simp only [SameExp, Exp.shape] at hab hcd ⊢
      rw [hab, hcd]
    · refine (follows_advance.bind fun _ _ _ => follows_name.bind fun x y hxy => ?_).uncounted
      subst hxy
      refine Follows.line fun m n => h.arguments.bind fun c d hcd => h.suffixes _ _ ?_
      simp only [SameExp, SameExps, Exp.shape, Exp.shapes_eq_map] at hab hcd ⊢
      rw [hab, hcd]
    · exact Follows.line fun m n => (hcall m n).from
    · exact Follows.line fun m n => (hcall m n).from
    · exact Follows.line fun m n => (hcall m n).from
    · exact follows_pure hab
  · dsimp only
    split
    case h_7 => exact follows_pure hab
    all_goals cases ht

theorem arguments_succ (h : Grammar j fuel fuel') :
    j.Follows Anywhere 0 SameExps (Reader.arguments (fuel + 1))
      (Reader.arguments (fuel' + 1)) := by
  refine Follows.of_eager (Follows.current fun t => ?_) (eager_arguments (fuel + 1))
  split
  · exact follows_token rfl
  · refine h.tableItems.from.bind fun a b hab => follows_pure ?_
    simp only [SameExps, SameExp, List.map_cons, List.map_nil] at hab ⊢
    rw [hab]
  · refine (follows_advance.bind fun _ _ _ => ?_).uncounted
    have hlist : j.Follows Anywhere 0 SameExps
        (do
          let es ← Reader.expressions fuel
          Reader.expect .rightParen
          return es)
        (do
          let es ← Reader.expressions fuel'
          Reader.expect .rightParen
          return es) :=
      h.expressions.bind fun as bs hab => (follows_expect _).bind fun _ _ _ => follows_pure hab
    refine Follows.of_eager ((follows_accept _).bind fun a b hab => follows_ite a b hab ?_ hlist)
      (Eager.accept (eager_expressions fuel).bind)
    exact follows_pure rfl
  · exact follows_stop

theorem expressions_succ (h : Grammar j fuel fuel') :
    j.Follows Anywhere 0 SameExps (Reader.expressions (fuel + 1))
      (Reader.expressions (fuel' + 1)) := by
  refine (h.expression 0).bind fun a b hab => ?_
  refine (follows_accept_of_parts rfl).bind fun c d hcd => follows_ite c d hcd ?_ ?_
  · refine h.expressions.bind fun as bs hbs => follows_pure ?_
    simp only [SameExps, SameExp, List.map_cons] at hab hbs ⊢
    rw [hab, hbs]
  · refine follows_pure ?_
    simp only [SameExps, SameExp, List.map_cons] at hab ⊢
    rw [hab]

theorem tableItems_succ (h : Grammar j fuel fuel') :
    j.Follows Anywhere 0 SameExp (Reader.tableItems (fuel + 1))
      (Reader.tableItems (fuel' + 1)) := by
  refine Follows.line fun m n => (follows_expect _).bind fun _ _ _ => ?_
  refine h.fields.bind fun as bs hab => follows_pure ?_
  simp only [SameExp, SameFields, Exp.shape, Field.shapes_eq_map] at hab ⊢
  rw [hab]

theorem fields_succ (h : Grammar j fuel fuel') :
    j.Follows Anywhere 0 SameFields (Reader.fields (fuel + 1)) (Reader.fields (fuel' + 1)) := by
  refine (follows_accept_of_parts rfl).bind fun a b hab => follows_ite a b hab ?_ ?_
  · exact follows_pure rfl
  · refine h.field.bind fun f g hfg => ?_
    have hmore : j.Follows Anywhere 0 SameFields (do return f :: (← Reader.fields fuel))
        (do return g :: (← Reader.fields fuel')) := by
      refine h.fields.bind fun fs gs hfs => follows_pure ?_
      simp only [SameFields, SameField, List.map_cons] at hfg hfs ⊢
      rw [hfg, hfs]
    refine (follows_accept_of_parts rfl).bind fun a b hab => follows_ite a b hab hmore ?_
    refine Follows.of_eager ((follows_accept _).bind fun a b hab => follows_ite a b hab hmore ?_)
      (Eager.accept (eager_expect _).bind)
    refine (follows_expect _).bind fun _ _ _ => follows_pure ?_
    simp only [SameFields, SameField, List.map_cons] at hfg ⊢
    rw [hfg]

/-- What reads an item of a table, by the tokens that it begins with. -/
def itemReader (fuel : Nat) : List Token → Reader Field
  | .name s :: .symbol .assign :: _ => do
    Reader.advance
    Reader.advance
    return .entry (.string (Bytes.ofChars s)) (← Reader.expression fuel 0)
  | .symbol .leftBracket :: _ => do
    Reader.advance
    let key ← Reader.expression fuel 0
    Reader.expect .rightBracket
    Reader.expect .assign
    return .entry key (← Reader.expression fuel 0)
  | _ => do return .item (← Reader.expression fuel 0)

/-- An item is read by the tokens that it begins with. -/
theorem field_eq (fuel : Nat) (p : Place) :
    Reader.field (fuel + 1) p = itemReader fuel (kinds p.tokens) p := by
  obtain ⟨previous, tokens⟩ := p
  rw [Reader.field]
  cases tokens with
  | nil => rfl
  | cons t tokens =>
    obtain ⟨t, line⟩ := t
    cases t with
    | symbol s => cases s <;> rfl
    | name s =>
      cases tokens with
      | nil => rfl
      | cons u tokens =>
        obtain ⟨u, line⟩ := u
        cases u with
        | symbol s => cases s <;> rfl
        | _ => rfl
    | _ => rfl

/-- How an item is read is up to the tokens in front of anything but an assignment. -/
theorem itemReader_append (fuel : Nat) {t : Token} (ht : t ≠ .symbol .assign) {ts : List Token}
    (hts : ts ≠ []) (rest : List Token) :
    itemReader fuel (ts ++ t :: rest) = itemReader fuel ts := by
  obtain ⟨u, ts, rfl⟩ := List.exists_cons_of_ne_nil hts
  cases u with
  | symbol s => cases s <;> rfl
  | name s =>
    cases ts with
    | nil =>
      rw [List.cons_append, List.nil_append, itemReader]
      · rfl
      · intro _ _ heq
        exact ht (List.cons.inj (List.cons.inj heq).2).1
      · simp
    | cons v ts =>
      cases v with
      | symbol y => cases y <;> rfl
      | _ => rfl
  | _ => rfl

/-- An item of a table is read alike by each of its forms. -/
theorem follows_itemReader (h : Grammar j fuel fuel') (ts : List Token) :
    j.Follows Before 0 SameField (itemReader fuel ts) (itemReader fuel' ts) := by
  unfold itemReader
  split
  · refine (follows_advance.bind fun _ _ _ => ?_).uncounted
    refine follows_advance_eager (follows_advance.bind fun _ _ _ => ?_).uncounted
      (eager_expression fuel 0).bind
    refine (h.expression 0).bind fun a b hab => follows_pure ?_
    simp only [SameField, SameExp, Field.shape] at hab ⊢
    rw [hab]
  · refine (follows_advance.bind fun _ _ _ => (h.expression 0).bind fun a b hab => ?_).uncounted
    refine (follows_expect _).bind fun _ _ _ => (follows_expect _).bind fun _ _ _ => ?_
    refine (h.expression 0).bind fun c d hcd => follows_pure ?_
    simp only [SameField, SameExp, Field.shape] at hab hcd ⊢
    rw [hab, hcd]
  · refine (h.expression 0).from.bind fun a b hab => follows_pure ?_
    simp only [SameField, SameExp, Field.shape] at hab ⊢
    rw [hab]

/-- One item of a table by its form. -/
theorem field_succ (h : Grammar j fuel fuel') :
    j.Follows Anywhere 0 SameField (Reader.field (fuel + 1)) (Reader.field (fuel' + 1)) := by
  refine Follows.of_eager ?_ (eager_field (fuel + 1))
  -- What is at the juncture is no assignment on either side.
  have hlast : j.last ≠ .symbol .assign := by
    rcases j.last_eq with hlast | hlast <;> simp [hlast]
  have hnext : j.next ≠ .symbol .assign := by
    intro heq
    have hparts := j.parts
    rw [heq] at hparts
    cases hparts
  intro ts p q hts hpq c p' hx
  rw [field_eq, hpq.alone, itemReader_append fuel hlast hts] at hx
  rw [field_eq, hpq.ahead, itemReader_append fuel' hnext hts]
  exact follows_itemReader h ts ts p q hts hpq c p' hx

theorem functionBody_succ (h : Grammar j fuel fuel') (hfuel : fuel ≤ fuel') (isMethod : Bool) :
    j.Follows Anywhere 0 SameExp (Reader.functionBody (fuel + 1) isMethod)
      (Reader.functionBody (fuel' + 1) isMethod) := by
  refine (follows_parameterList hfuel).bind fun r s hrs => ?_
  subst hrs
  refine Follows.bind_inner h.block (fun b => (eager_expectWord _).bind) fun b c hbc => ?_
  refine (follows_expectWord _).bind fun _ _ _ => Follows.line fun m n => follows_pure ?_
  simp only [SameExp, SameBlock, Exp.shape, Stat.shapes_eq_map] at hbc ⊢
  rw [hbc]

/-- A block inside a text: statements, and possibly a `return`, up to something else. -/
theorem block_succ (h : Grammar j fuel fuel') :
    j.Follows Anywhere 0 SameBlock (inner (Reader.block (fuel + 1)))
      (Reader.block (fuel' + 1)) := by
  have hreturn : j.Follows Anywhere 0 SameBlock (inner (do return [← Reader.returned fuel]))
      (do return [← Reader.returned fuel']) := by
    rw [inner_map]
    refine h.returned.bind fun a b hab => follows_pure ?_
    simp only [SameBlock, SameStat, List.map_cons, List.map_nil] at hab ⊢
    rw [hab]
  rw [Reader.block, Reader.block, inner_bind]
  refine Follows.of_eager (Follows.current fun t => ?_) (Eager.current (eager_inner_pure []))
  by_cases ht : Reader.endsBlock t = true
  · rw [if_pos ht, if_pos ht]
    exact follows_inner_pure rfl
  · rw [if_neg ht, if_neg ht, inner_bind]
    refine (follows_acceptWord _).bind fun a b hab => ?_
    subst hab
    cases a with
    | true => exact hreturn
    | false =>
      show j.Follows Anywhere 0 SameBlock (inner (Reader.statement fuel >>= _)) _
      rw [inner_bind]
      refine h.statement.uncounted.bind fun s t hst => ?_
      cases hst with
      | none => exact h.block
      | some hst =>
        dsimp only
        rw [inner_map]
        refine h.block.bind fun a b hab => follows_pure ?_
        simp only [SameBlock, SameStat, List.map_cons] at hst hab ⊢
        rw [hst, hab]

/-- What follows a `return` inside a text. -/
theorem returned_succ (h : Grammar j fuel fuel') :
    j.Follows Anywhere 0 SameStat (inner (Reader.returned (fuel + 1)))
      (Reader.returned (fuel' + 1)) := by
  have hvalues : j.Follows Anywhere 0 SameStat
      (inner (do
        let es ← Reader.expressions fuel
        let _ ← Reader.accept .semicolon
        return .yields es))
      (do
        let es ← Reader.expressions fuel'
        let _ ← Reader.accept .semicolon
        return .yields es) := by
    rw [inner_bind]
    refine h.expressions.bind fun as bs hab => ?_
    rw [inner_bind]
    refine Follows.of_eager ((follows_accept _).bind fun _ _ _ => follows_inner_pure ?_)
      (Eager.accept (eager_inner_pure _))
    simp only [SameStat, SameExps, Stat.shape, Exp.shapes_eq_map] at hab ⊢
    rw [hab]
  rw [Reader.returned, Reader.returned, inner_bind]
  refine Follows.of_eager (Follows.current fun t => ?_) (Eager.current (eager_inner_pure _))
  have hnone : SameStat (.yields []) (.yields []) := rfl
  split
  · rw [inner_bind]
    exact (follows_advance.bind fun _ _ _ => follows_inner_pure hnone).uncounted
  · by_cases ht : Reader.endsBlock t = true
    · rw [if_pos ht, if_pos ht]
      exact follows_inner_pure rfl
    · rw [if_neg ht, if_neg ht]
      exact hvalues.from

theorem assignment_succ (h : Grammar j fuel fuel') {as bs : List Exp} {a b : Exp}
    (hs : SameExps as bs) (hab : SameExp a b) :
    j.Follows Anywhere 0 SameStat (Reader.assignment (fuel + 1) as a)
      (Reader.assignment (fuel' + 1) bs b) := by
  have htarget : a.isTarget = b.isTarget := by
    rw [← Exp.isTarget_shape a, ← Exp.isTarget_shape b, hab]
  have hall : SameExps (as ++ [a]) (bs ++ [b]) := by
    simp only [SameExps, SameExp, List.map_append, List.map_cons, List.map_nil] at hs hab ⊢
    rw [hs, hab]
  refine follows_ite _ _ htarget ?_ follows_stop
  refine (follows_accept_of_parts rfl).bind fun c d hcd => follows_ite c d hcd ?_ ?_
  · exact h.suffixed.uncounted.bind fun c d hcd => h.assignment _ _ c d hall hcd
  · refine (follows_expect _).bind fun _ _ _ => h.expressions.bind fun cs ds hcs => ?_
    refine follows_previousLine.bind fun m n _ => follows_pure ?_
    simp only [SameStat, SameExps, Stat.shape, Exp.shapes_eq_map] at hall hcs ⊢
    rw [hall, hcs]

theorem branches_succ (h : Grammar j fuel fuel') :
    j.Follows Anywhere 0 SameStat (Reader.branches (fuel + 1)) (Reader.branches (fuel' + 1)) := by
  have hend {a b : Exp} {yes yes' no no' : Block} (hab : SameExp a b) (hyes : SameBlock yes yes')
      (hno : SameBlock no no') : j.Follows Anywhere 0 SameStat
        (do
          Reader.expectWord .«end»
          return .choose a yes no)
        (do
          Reader.expectWord .«end»
          return .choose b yes' no') := by
    refine (follows_expectWord _).bind fun _ _ _ => follows_pure ?_
    simp only [SameStat, SameExp, SameBlock, Stat.shape_choose] at hab hyes hno ⊢
    rw [hab, hyes, hno]
  refine (h.expression 0).bind fun a b hab => (follows_expectWord _).bind fun _ _ _ => ?_
  refine Follows.bind_inner h.block
    (fun _ => Eager.acceptWord (Eager.acceptWord (eager_expectWord _).bind))
    fun yes yes' hyes => ?_
  refine Follows.of_eager ((follows_acceptWord _).bind fun c d hcd => follows_ite c d hcd ?_ ?_)
    (Eager.acceptWord (Eager.acceptWord (eager_expectWord _).bind))
  · refine h.branches.bind fun s t hst => follows_pure ?_
    simp only [SameStat, SameExp, SameBlock, Stat.shape_choose, List.map_cons,
      List.map_nil] at hab hyes hst ⊢
    rw [hab, hyes, hst]
  · refine Follows.of_eager ((follows_acceptWord _).bind fun c d hcd => follows_ite c d hcd ?_ ?_)
      (Eager.acceptWord (eager_expectWord _).bind)
    · exact Follows.bind_inner h.block (fun _ => (eager_expectWord _).bind)
        fun no no' hno => hend hab hyes hno
    · exact hend hab hyes rfl

/-- The body of a loop, behind everything that the loop runs over. -/
theorem follows_loopBody (h : Grammar j fuel fuel') {f g : Block → Stat}
    (hfg : ∀ a b, SameBlock a b → SameStat (f a) (g b)) :
    j.Follows Anywhere 0 SameStat
      (do
        Reader.expectWord .«do»
        let body ← Reader.block fuel
        Reader.expectWord .«end»
        return f body)
      (do
        Reader.expectWord .«do»
        let body ← Reader.block fuel'
        Reader.expectWord .«end»
        return g body) := by
  refine (follows_expectWord _).bind fun _ _ _ => ?_
  refine Follows.bind_inner h.block (fun _ => (eager_expectWord _).bind) fun a b hab => ?_
  exact (follows_expectWord _).bind fun _ _ _ => follows_pure (hfg a b hab)

/-- The values and the body of a loop, behind its names. -/
theorem follows_genericFor (h : Grammar j fuel fuel') (m n : Nat) (xs : List Ident) :
    j.Follows Anywhere 0 SameStat
      (do
        Reader.expectWord .«in»
        let values ← Reader.expressions fuel
        Reader.expectWord .«do»
        let body ← Reader.block fuel
        Reader.expectWord .«end»
        return .genericFor m xs values body)
      (do
        Reader.expectWord .«in»
        let values ← Reader.expressions fuel'
        Reader.expectWord .«do»
        let body ← Reader.block fuel'
        Reader.expectWord .«end»
        return .genericFor n xs values body) := by
  refine (follows_expectWord _).bind fun _ _ _ => h.expressions.bind fun as bs hab => ?_
  refine h.follows_loopBody fun c d hcd => ?_
  simp only [SameStat, SameExps, SameBlock, Stat.shape, Stat.shapes_eq_map,
    Exp.shapes_eq_map] at hab hcd ⊢
  rw [hab, hcd]

theorem loop_succ (h : Grammar j fuel fuel') (hfuel : fuel ≤ fuel') (m n : Nat) :
    j.Follows Anywhere 0 SameStat (Reader.loop (fuel + 1) m) (Reader.loop (fuel' + 1) n) := by
  have hgeneric (x : Ident) : j.Follows Before 0 SameStat
      (do
        let more ← if ← Reader.accept .comma then Reader.names fuel else pure []
        Reader.expectWord .«in»
        let values ← Reader.expressions fuel
        Reader.expectWord .«do»
        let body ← Reader.block fuel
        Reader.expectWord .«end»
        return .genericFor m (x :: more) values body)
      (do
        let more ← if ← Reader.accept .comma then Reader.names fuel' else pure []
        Reader.expectWord .«in»
        let values ← Reader.expressions fuel'
        Reader.expectWord .«do»
        let body ← Reader.block fuel'
        Reader.expectWord .«end»
        return .genericFor n (x :: more) values body) := by
    refine (follows_accept _).bind fun a b hab => follows_ite a b hab ?_ ?_
    · refine (follows_names hfuel).bind fun xs ys hxs => ?_
      subst hxs
      exact h.follows_genericFor m n (x :: xs)
    · refine (follows_pure rfl).bind fun xs ys hxs => ?_
      subst hxs
      exact h.follows_genericFor m n (x :: xs)
  refine follows_name.bind fun x y hxy => ?_
  subst hxy
  refine Follows.of_eager (Follows.current fun t => ?_) (Eager.current eager_stop)
  split
  · refine (follows_advance.bind fun _ _ _ => (h.expression 0).bind fun a b hab => ?_).uncounted
    refine (follows_expect _).bind fun _ _ _ => (h.expression 0).bind fun c d hcd => ?_
    have hstep (e f : Exp) (hef : SameExp e f) := h.follows_loopBody
      (f := .numericFor m x a c e) (g := .numericFor n x b d f) fun r s hrs => by
        simp only [SameStat, SameExp, SameBlock, Stat.shape, Stat.shapes_eq_map] at *
        rw [hab, hcd, hef, hrs]
    refine (follows_accept_of_parts rfl).bind fun y z hyz => follows_ite y z hyz ?_ ?_
    · exact (h.expression 0).bind hstep
    · exact (follows_pure (P := SameExp) rfl).bind hstep
  · exact hgeneric x
  · exact hgeneric x
  · exact follows_stop

/-- A statement that is read by its first keyword, from what is behind it. -/
theorem follows_some {x : Reader Stat} {y : Reader Stat}
    (h : j.Follows Anywhere 0 SameStat x y) :
    j.Follows Before 1 (Option.Rel SameStat) (do Reader.advance; return some (← x))
      (do Reader.advance; return some (← y)) :=
  follows_advance.bind fun _ _ _ => h.bind fun _ _ hab => follows_pure (.some hab)

/-- A declaration of variables, or of a function. -/
theorem follows_local (h : Grammar j fuel fuel') (hfuel : fuel ≤ fuel') :
    j.Follows Before 1 (Option.Rel SameStat)
      (do
        Reader.advance
        if ← Reader.acceptWord .function then
          let n ← Reader.name
          return some (.declareFunction n (← Reader.functionBody fuel false))
        else
          let ns ← Reader.declared fuel false
          if ← Reader.accept .assign then
            return some (.declare ns (← Reader.expressions fuel))
          else return some (.declare ns []))
      (do
        Reader.advance
        if ← Reader.acceptWord .function then
          let n ← Reader.name
          return some (.declareFunction n (← Reader.functionBody fuel' false))
        else
          let ns ← Reader.declared fuel' false
          if ← Reader.accept .assign then
            return some (.declare ns (← Reader.expressions fuel'))
          else return some (.declare ns [])) := by
  refine follows_advance.bind fun _ _ _ => ?_
  refine Follows.of_eager ((follows_acceptWord _).bind fun a b hab => follows_ite a b hab ?_ ?_)
    (Eager.acceptWord (eager_declared fuel false).bind)
  · refine follows_name.bind fun x y hxy => (h.functionBody false).bind fun a b hab => ?_
    subst hxy
    refine follows_pure (.some ?_)
    simp only [SameStat, SameExp, Stat.shape] at hab ⊢
    rw [hab]
  · refine (follows_declared hfuel false).bind fun xs ys hxs => ?_
    subst hxs
    refine (follows_accept_of_parts rfl).bind fun a b hab => follows_ite a b hab ?_ ?_
    · refine h.expressions.bind fun as bs hs => follows_pure (.some ?_)
      simp only [SameStat, SameExps, Stat.shape, Exp.shapes_eq_map] at hs ⊢
      rw [hs]
    · exact follows_pure (.some rfl)

/-- A call, or an assignment. -/
theorem follows_suffixed (h : Grammar j fuel fuel') :
    j.Follows Before 1 (Option.Rel SameStat)
      (do
        let e ← Reader.suffixed fuel
        match ← Reader.current with
        | .symbol .assign | .symbol .comma => return some (← Reader.assignment fuel [] e)
        | _ => if e.isCall then return some (.call e) else Reader.stop)
      (do
        let e ← Reader.suffixed fuel'
        match ← Reader.current with
        | .symbol .assign | .symbol .comma => return some (← Reader.assignment fuel' [] e)
        | _ => if e.isCall then return some (.call e) else Reader.stop) := by
  refine h.suffixed.from.bind fun a b hab => ?_
  have hcalls : a.isCall = b.isCall := by
    rw [← Exp.isCall_shape a, ← Exp.isCall_shape b, hab]
  have hcall (S : List Token → Prop) : j.Follows S 0 (Option.Rel SameStat)
      (if a.isCall then return some (.call a) else Reader.stop)
      (if b.isCall then return some (.call b) else Reader.stop) := by
    refine follows_ite _ _ hcalls (follows_pure (.some ?_)) follows_stop
    simp only [SameStat, SameExp, Stat.shape] at hab ⊢
    rw [hab]
  have hassign : j.Follows Before 0 (Option.Rel SameStat)
      (do return some (← Reader.assignment fuel [] a))
      (do return some (← Reader.assignment fuel' [] b)) :=
    (h.assignment [] [] a b rfl hab).from.bind fun _ _ hst => follows_pure (.some hst)
  refine Follows.current_parts (fun t => ?_) fun t ht => ?_
  · split
    · exact hassign
    · exact hassign
    · exact hcall _
  · cases t with
    | symbol s => cases s <;> first | exact hcall _ | cases ht
    | _ => exact hcall _

theorem statement_succ (h : Grammar j fuel fuel') (hfuel : fuel ≤ fuel') :
    j.Follows Anywhere 1 (Option.Rel SameStat) (Reader.statement (fuel + 1))
      (Reader.statement (fuel' + 1)) := by
  have hbody {f g : Block → Stat} (w : Keyword)
      (hfg : ∀ a b, SameBlock a b → SameStat (f a) (g b)) :
      j.Follows Anywhere 0 (Option.Rel SameStat)
        (do
          let body ← Reader.block fuel
          Reader.expectWord w
          return some (f body))
        (do
          let body ← Reader.block fuel'
          Reader.expectWord w
          return some (g body)) := by
    refine Follows.bind_inner h.block (fun _ => (eager_expectWord _).bind) fun a b hab => ?_
    exact (follows_expectWord _).bind fun _ _ _ => follows_pure (.some (hfg a b hab))
  refine Follows.of_eager ?_ (eager_statement (fuel + 1))
  refine Follows.line fun m n => Follows.current fun t => ?_
  split
  · exact follows_advance.bind fun _ _ _ => follows_pure .none
  · refine follows_advance.bind fun _ _ _ => follows_name.bind fun x y hxy => ?_
    subst hxy
    exact (follows_expect _).bind fun _ _ _ => follows_pure (.some rfl)
  · exact follows_advance.bind fun _ _ _ => follows_pure (.some rfl)
  · refine follows_advance.bind fun _ _ _ => follows_name.bind fun x y hxy => ?_
    subst hxy
    exact follows_pure (.some rfl)
  · refine follows_advance.bind fun _ _ _ => hbody _ fun a b hab => ?_
    simp only [SameStat, SameBlock, Stat.shape, Stat.shapes_eq_map] at hab ⊢
    rw [hab]
  · refine follows_advance.bind fun _ _ _ => (h.expression 0).bind fun a b hab => ?_
    refine (follows_expectWord _).bind fun _ _ _ => hbody _ fun c d hcd => ?_
    simp only [SameStat, SameExp, SameBlock, Stat.shape, Stat.shapes_eq_map] at hab hcd ⊢
    rw [hab, hcd]
  · refine follows_advance.bind fun _ _ _ => ?_
    refine Follows.bind_inner h.block (fun _ => (eager_expectWord _).bind) fun a b hab => ?_
    refine (follows_expectWord _).bind fun _ _ _ => (h.expression 0).bind fun c d hcd => ?_
    refine follows_pure (.some ?_)
    simp only [SameStat, SameExp, SameBlock, Stat.shape, Stat.shapes_eq_map] at hab hcd ⊢
    rw [hab, hcd]
  · exact follows_some h.branches
  · exact follows_some (h.loop m n)
  · refine follows_advance.bind fun _ _ _ => follows_name.bind fun x y hxy => ?_
    subst hxy
    refine (follows_functionName hfuel rfl).bind fun r s hrs => ?_
    obtain ⟨target, isMethod⟩ := r
    obtain ⟨target', isMethod'⟩ := s
    obtain ⟨htarget, rfl⟩ := hrs
    refine (h.functionBody isMethod).bind fun a b hab => follows_pure (.some ?_)
    simp only [SameStat, SameExp, Stat.shape, Exp.shapes_eq_map, List.map_cons,
      List.map_nil] at htarget hab ⊢
    rw [htarget, hab]
  · exact follows_local h hfuel
  · exact follows_suffixed h

/-- One step of the grammar. -/
theorem succ (h : Grammar j fuel fuel') (hfuel : fuel ≤ fuel') :
    Grammar j (fuel + 1) (fuel' + 1) where
  expression := h.expression_succ
  operators limit _ _ hab := h.operators_succ limit hab
  simple := h.simple_succ
  suffixed := h.suffixed_succ
  suffixes _ _ hab := h.suffixes_succ hab
  arguments := h.arguments_succ
  expressions := h.expressions_succ
  tableItems := h.tableItems_succ
  fields := h.fields_succ
  field := h.field_succ
  functionBody := h.functionBody_succ hfuel
  block := h.block_succ
  returned := h.returned_succ
  statement := h.statement_succ hfuel
  assignment _ _ _ _ hs hab := h.assignment_succ hs hab
  branches := h.branches_succ
  loop := h.loop_succ hfuel

end Grammar

/-- **The grammar in front of more** does what it does on its own.

**Proof sketch.** Induction on the fuel, with one case for each rule of the grammar. A rule either
needs a token where the text ends on its own, and fails there, or it looks at one token and finds
that it does not go on; and the token that the text goes on with does not either. -/
theorem grammar {fuel fuel' : Nat} (hfuel : fuel ≤ fuel') : Grammar j fuel fuel' := by
  induction fuel generalizing fuel' with
  | zero => exact Grammar.zero fuel'
  | succ fuel ih =>
    obtain ⟨fuel', rfl⟩ : ∃ n, fuel' = n + 1 := ⟨fuel' - 1, by omega⟩
    exact (ih (by omega)).succ (by omega)

end Stencil.Lua.Juncture
