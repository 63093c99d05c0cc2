import Stencil.Proofs.History
import Stencil.Proofs.Lua.Confinement.Reach
import Stencil.Proofs.Lua.Confinement.Running
set_option autoImplicit false

/-!
# Whom renderings ask

Each rendering puts a new function into the support table, which asks for the resolver of that
rendering. A program that keeps such a function beyond its rendering goes on asking the old
resolver. If it cannot come by any of them, each rendering asks the resolver that is installed at
the time, whatever resolvers there have been before.

## Main definitions

* `Stencil.Lua.Session.Forgetful` — a session in which no function of an earlier rendering can be
  come by.
* `Stencil.Lua.Session.redirected` — the session in which all functions ask a given resolver.
* `Stencil.Context.outcomes` — the outcomes of the renderings in a sequence of operations.
* `Stencil.Context.Throughout` — what is held whenever a sequence of operations renders.

## Main results

* `Stencil.Lua.Session.render_asking` — a rendering depends on what the program can come by.
* `Stencil.Context.outcomes_redirected` — each rendering asks the installed resolver.
-/

namespace Stencil.Lua

open Run (Confined)

variable {R : Region}

/-! ## States -/

mutual

/-- The value for a tree of data asks nobody. -/
theorem treeValue_confined (t : Json) : Confined R (Value.Within R) (treeValue t) := by
  cases t with
  | array items =>
    rw [treeValue]
    refine (treeValues_confined items).bind fun vs hvs => .newTable ⟨?_, by simp⟩
    exact fun v hv => hvs v (List.mem_toArray.mp hv)
  | object entries =>
    rw [treeValue]
    exact (treeEntries_confined entries).bind fun es hes => .newTable ⟨by simp, hes⟩
  | int n =>
    rw [treeValue]
    split <;> exact .pure trivial
  | _ =>
    rw [treeValue]
    exact .pure trivial

/-- The values for the items of a list ask nobody. -/
theorem treeValues_confined (ts : List Json) :
    Confined R (Arguments.Within R) (treeValues ts) := by
  cases ts with
  | nil =>
    rw [treeValues]
    exact .pure Arguments.Within.nil
  | cons t ts =>
    rw [treeValues]
    refine (treeValue_confined t).bind fun v hv => (treeValues_confined ts).bind fun vs hvs => ?_
    exact .pure (Arguments.Within.cons.mpr ⟨hv, hvs⟩)

/-- The entries for those of a table ask nobody. -/
theorem treeEntries_confined (entries : List (String × Json)) :
    Confined R (fun es => ∀ e ∈ es, e.1.Within R ∧ e.2.Within R) (treeEntries entries) := by
  cases entries with
  | nil =>
    rw [treeEntries]
    exact .pure (by simp)
  | cons entry entries =>
    obtain ⟨key, t⟩ := entry
    rw [treeEntries]
    refine (treeValue_confined t).bind fun v hv => ?_
    refine (treeEntries_confined entries).bind fun es hes => .pure ?_
    split
    · exact hes
    · exact List.forall_mem_cons.mpr ⟨⟨trivial, hv⟩, hes⟩

end

/-! ## Larger regions -/

/-- A region with one more function that asks the host. -/
def Region.withInclusion (R : Region) (n : Nat) : Region :=
  { R with inclusions := fun k => R.inclusions k ∨ k = n }

/-- A value within a region is within a larger one. -/
theorem Value.Within.withInclusion {v : Value} (h : v.Within R) (n : Nat) :
    v.Within (R.withInclusion n) := by
  cases v with
  | inclusion k => exact .inl h
  | _ => exact h

/-- A table within a region is within a larger one. -/
theorem Table.Within.withInclusion {t : Table} (h : t.Within R) (n : Nat) :
    t.Within (R.withInclusion n) :=
  ⟨fun v hv => (h.items v hv).withInclusion n,
    fun e he => ⟨(h.entries e he).1.withInclusion n, (h.entries e he).2.withInclusion n⟩⟩

/-- A machine within a region is within a larger one. -/
theorem Machine.Within.withInclusion {m : Machine} (h : m.Within R) (n : Nat) :
    m.Within (R.withInclusion n) where
  tables k hk := (h.tables k hk).withInclusion n
  cells k hk := (h.cells k hk).withInclusion n
  closures := h.closures
  strings := h.strings
  newTables := h.newTables
  newCells := h.newCells
  newClosures := h.newClosures

/-! ## The entry of the support table -/

/-- The machine with a new function in its support table that asks for content. -/
def Machine.bound (m : Machine) (support : Nat) (asked : Option (Option Resolver)) : Machine :=
  { m with
    tables := m.tables.modify support fun t => t.set includeKey (.inclusion m.inclusions.size)
    inclusions := m.inclusions.push asked }

/-- The support table is bound by putting a new function into it. -/
theorem bindIncludes_eq (support : Nat) (asked : Option (Option Resolver)) (m : Machine) :
    bindIncludes support asked m = .done () (m.bound support asked) := rfl

/-- The machine without the entry of the support table. -/
def Machine.unbound (m : Machine) (support : Nat) : Machine :=
  { m with tables := m.tables.modify support fun t => t.set includeKey .nil }

/-- Entries that are given one value for another. -/
theorem replace_within {key v w : Value} {entries : List (Value × Value)}
    (h : ∀ e ∈ Table.replace key v entries, e.1.Within R ∧ e.2.Within R) (hkey : key.Within R)
    (hw : w.Within R) : ∀ e ∈ Table.replace key w entries, e.1.Within R ∧ e.2.Within R := by
  induction entries with
  | nil => exact Table.Within.replace (by simp) hkey hw
  | cons e entries ih =>
    unfold Table.replace at h ⊢
    by_cases he : e.1.rawEq key = true
    · rw [if_pos he, List.forall_mem_cons] at h
      rw [if_pos he]
      exact List.forall_mem_cons.mpr ⟨⟨h.1.1, hw⟩, h.2⟩
    · rw [if_neg he, List.forall_mem_cons] at h
      rw [if_neg he]
      exact List.forall_mem_cons.mpr ⟨h.1, ih h.2⟩

/-- The entry for includes is one of the other entries of a table. -/
theorem set_includeKey (t : Table) (v : Value) :
    t.set includeKey v = { t with entries := Table.replace includeKey v t.entries } := rfl

/-- **A machine that is bound** has the new function in addition to what it has without the
entry. -/
theorem Machine.Within.bound {m : Machine} {support : Nat} (h : (m.unbound support).Within R)
    (asked : Option (Option Resolver)) (hnew : R.inclusions m.inclusions.size) :
    (m.bound support asked).Within R where
  tables n hn := by
    have hunbound := h.tables n hn
    simp only [Machine.unbound, Machine.bound, Array.getD_eq_getD_getElem?, Array.getElem?_modify]
      at hunbound ⊢
    split
    · rename_i hsupport
      rw [if_pos hsupport] at hunbound
      cases hu : m.tables[n]? with
      | none => exact .empty
      | some u =>
        rw [hu] at hunbound
        have hentry : (u.set includeKey .nil).Within R := hunbound
        show (u.set includeKey _).Within R
        rw [set_includeKey] at hentry ⊢
        exact ⟨hentry.items, replace_within hentry.entries trivial hnew⟩
    · rename_i hsupport
      rwa [if_neg hsupport] at hunbound
  cells := h.cells
  closures := h.closures
  strings := h.strings
  newTables n hn := h.newTables n (by simpa [Machine.unbound, Machine.bound] using hn)
  newCells := h.newCells
  newClosures := h.newClosures

/-- Whom the functions ask when the support table is bound. -/
theorem Machine.asking_bound (m : Machine) (support : Nat) (asked : Option (Option Resolver))
    {xs : Askings} (hsize : xs.size = m.inclusions.size) :
    (m.asking xs).bound support asked = (m.bound support asked).asking (xs.push asked) := by
  simp only [Machine.bound, Machine.asking, hsize]

/-- One more function that asks the same. -/
theorem Askings.Agree.push {xs ys : Askings} (h : Askings.Agree R xs ys)
    (hsize : xs.size = ys.size) (asked : Option (Option Resolver)) :
    Askings.Agree (R.withInclusion ys.size) (xs.push asked) (ys.push asked) := by
  intro n hn
  rcases hn with hn | rfl
  · have hn := h n hn
    rw [Array.getD_eq_getD_getElem?, Array.getD_eq_getD_getElem?] at hn ⊢
    rw [Array.getElem?_push, Array.getElem?_push, hsize]
    split
    · rfl
    · exact hn
  · rw [Array.getD_eq_getD_getElem?, Array.getD_eq_getD_getElem?, Array.getElem?_push,
      Array.getElem?_push, if_pos hsize.symm, if_pos rfl]

/-! ## Renderings -/

namespace Session

/-- The session in which the functions ask others. -/
def asking (s : Session) (xs : Askings) : Session := { s with machine := s.machine.asking xs }

/-- **The session in which every function that asks the host** asks the same resolver. -/
def redirected (s : Session) (includes : Option Resolver) : Session :=
  s.asking (Array.replicate s.machine.inclusions.size (some includes))

/-- What a rendering does between the two bindings of the support table. -/
def renderBound (s : Session) (state : Json) : Run (Except Value Arguments) := do
  let v ← treeValue state
  Run.protect (call s.steps .start s.entry [v])

/-- The outcome and the session of what a rendering does between the two bindings. -/
def conclude (s : Session) : Step (Except Value Arguments) → Outcome × Session
  | .done (.ok values) m =>
    (outcomeOf (values.headD .nil), { s with machine := m.bound s.support (some none) })
  | .done (.error v) m =>
    (.failed (Failure.ofValue v).renderError,
      { s with machine := m.bound s.support (some none) })
  | .raised v m => (.failed (Failure.ofValue v).renderError, { s with machine := m })
  | .exhausted => (.failed endless.renderError, s)

/-- A rendering binds the support table, calls the function that renders, and binds the table
again. -/
theorem render_eq (s : Session) (state : Json) (includes : Option Resolver) :
    s.render state includes =
      s.conclude (s.renderBound state (s.machine.bound s.support (some includes))) := by
  have hbound : s.renderRun state includes s.machine =
      ((do
        let v ← treeValue state
        let result ← Run.protect (call s.steps .start s.entry [v])
        bindIncludes s.support (some none)
        return result) : Run (Except Value Arguments))
        (s.machine.bound s.support (some includes)) :=
    Run.bind_done (bindIncludes_eq s.support (some includes) s.machine)
  rw [render, hbound, renderBound]
  cases hstate : treeValue state (s.machine.bound s.support (some includes)) with
  | done v m =>
    rw [Run.bind_done hstate, Run.bind_done hstate]
    cases hcall : Run.protect (call s.steps .start s.entry [v]) m with
    | done result m' =>
      rw [Run.bind_done hcall]
      cases result <;> rfl
    | raised e m' =>
      rw [Run.bind_raised hcall]
      rfl
    | exhausted =>
      rw [Run.bind_exhausted hcall]
      rfl
  | raised e m =>
    rw [Run.bind_raised hstate, Run.bind_raised hstate]
    rfl
  | exhausted =>
    rw [Run.bind_exhausted hstate, Run.bind_exhausted hstate]
    rfl

/-- What a rendering does between the two bindings depends on the region of the function that
renders. -/
theorem renderBound_confined (s : Session) (state : Json) (hentry : s.entry.Within R) :
    Confined R
      (fun r => (∀ vs, r = .ok vs → Arguments.Within R vs) ∧ ∀ e, r = .error e → e.Within R)
      (s.renderBound state) := by
  refine (treeValue_confined state).bind fun v hv => ?_
  exact (call_confined s.steps .start s.entry [v] hentry (by simpa using hv)).protect

/-- **A rendering depends on the region of the function that renders:** whoever the functions
outside ask, it has the same outcome, and leaves the same behind but for whom the functions ask.

**Proof sketch.** With the support table bound, the region has one more function. That one has the
same number and asks the same resolver in both machines; so a run of the function that renders does
the same in both, and the support table is bound again in both. -/
theorem render_asking (s : Session) (state : Json) (includes : Option Resolver) {xs : Askings}
    (hsize : xs.size = s.machine.inclusions.size)
    (hxs : Askings.Agree R xs s.machine.inclusions)
    (hmachine : (s.machine.unbound s.support).Within R) (hentry : s.entry.Within R) :
    ∃ ys : Askings, ys.size = (s.render state includes).2.machine.inclusions.size ∧
      (s.asking xs).render state includes =
        ((s.render state includes).1, (s.render state includes).2.asking ys) := by
  have hbound := Machine.Within.bound (hmachine.withInclusion s.machine.inclusions.size)
    (some includes) (.inr rfl)
  have hconfined := s.renderBound_confined state (hentry.withInclusion s.machine.inclusions.size)
  have hrun := hconfined.asking _ _ hbound (hxs.push hsize (some includes))
  have hsame : (s.asking xs).render state includes =
      (s.asking xs).conclude ((s.renderBound state
        (s.machine.bound s.support (some includes))).asking (xs.push (some includes))) := by
    rw [render_eq, ← hrun, ← Machine.asking_bound _ _ _ hsize]
    rfl
  rw [hsame, render_eq]
  cases hstep : s.renderBound state (s.machine.bound s.support (some includes)) with
  | done result m =>
    have hm : (xs.push (some includes)).size = m.inclusions.size := by
      rw [hconfined.inclusions_eq hbound hstep]
      simp [Machine.bound, hsize]
    have hrebound := m.asking_bound s.support (some none) hm
    refine ⟨(xs.push (some includes)).push (some none), ?_, ?_⟩
    · cases result <;> simp [conclude, Machine.bound, hm]
    · cases result <;> simp only [Step.asking, conclude, asking, hrebound]
  | raised e m =>
    have hm : m.inclusions.size = (xs.push (some includes)).size := by
      rw [hconfined.inclusions_eq_of_raised hbound hstep]
      simp [Machine.bound, hsize]
    exact ⟨xs.push (some includes), hm.symm, rfl⟩
  | exhausted => exact ⟨xs, hsize, rfl⟩

/-- What the program of a session can come by, but for the entry that every rendering binds
anew. -/
def Reaches (s : Session) : Value → Prop :=
  (s.machine.unbound s.support).Reaches fun v => v = s.entry ∨ v = .table s.machine.strings

/-- **A session in which no function of an earlier rendering can be come by.** -/
def Forgetful (s : Session) : Prop := ∀ n, ¬ s.Reaches (.inclusion n)

/-- **A rendering of a forgetful session** asks the resolver that it is given: it has the same
outcome if all functions are made to ask that one. -/
theorem Forgetful.render_redirected {s : Session} (h : s.Forgetful) (state : Json)
    (includes : Option Resolver) :
    ∃ ys : Askings, ys.size = (s.render state includes).2.machine.inclusions.size ∧
      (s.redirected includes).render state includes =
        ((s.render state includes).1, (s.render state includes).2.asking ys) := by
  refine s.render_asking state includes (by simp) (fun n hn => (h n hn).elim)
    ((s.machine.unbound s.support).within_region (.inr rfl)) ?_
  exact (Machine.Reaches.root (.inl rfl)).within

/-- A session without functions that ask the host, but for the entry that every rendering binds
anew. -/
def Silent (s : Session) : Prop :=
  (s.machine.unbound s.support).Silent ∧ s.entry.isInclusion = false

instance (s : Session) : Decidable s.Silent := inferInstanceAs (Decidable (_ ∧ _))

/-- No function of an earlier rendering can be come by where there is none. -/
theorem Silent.forgetful {s : Session} (h : s.Silent) : s.Forgetful := by
  intro n hn
  have hroots (v : Value) (hv : v = s.entry ∨ v = .table s.machine.strings) :
      v.isInclusion = false := by
    rcases hv with rfl | rfl
    · exact h.2
    · rfl
  cases h.1.reaches hroots hn

/-- Whom the functions have asked before does not matter when all are made to ask the same. -/
theorem redirected_asking (s : Session) {xs : Askings}
    (hsize : xs.size = s.machine.inclusions.size) (includes : Option Resolver) :
    (s.asking xs).redirected includes = s.redirected includes := by
  simp only [redirected, asking, Machine.asking, hsize]

end Session

end Stencil.Lua

namespace Stencil

/-! ## Sequences of operations -/

/-- Whether an operation is a rendering. -/
def Call.isRendering {σ : Type} : Call σ → Bool
  | .execute _ => true
  | _ => false

/-- What is held when all functions of a session ask the same resolver. -/
def Holding.redirected (includes : Option Resolver) :
    Holding Lua.Session → Holding Lua.Session
  | .nothing => .nothing
  | .rejected program => .rejected program
  | .compiled language program s => .compiled language program (s.redirected includes)

/-- What is said of the session that is held, if there is one. -/
def Holding.Satisfies (p : Lua.Session → Prop) : Holding Lua.Session → Prop
  | .nothing => True
  | .rejected _ => True
  | .compiled _ _ s => p s

instance Holding.decidableSatisfies {p : Lua.Session → Prop} [DecidablePred p] :
    (h : Holding Lua.Session) → Decidable (h.Satisfies p)
  | .nothing => inferInstanceAs (Decidable True)
  | .rejected _ => inferInstanceAs (Decidable True)
  | .compiled _ _ s => inferInstanceAs (Decidable (p s))

/-- Holdings that are alike but for whom the functions of a session ask. -/
inductive Holding.Alike : Holding Lua.Session → Holding Lua.Session → Prop where
  | nothing : Alike .nothing .nothing
  | rejected (program : String) : Alike (.rejected program) (.rejected program)
  | compiled (language program : String) (s : Lua.Session) (xs : Lua.Askings)
      (hsize : xs.size = s.machine.inclusions.size) :
      Alike (.compiled language program s) (.compiled language program (s.asking xs))

/-- A holding is like itself. -/
theorem Holding.Alike.refl (h : Holding Lua.Session) : h.Alike h := by
  cases h with
  | nothing => exact .nothing
  | rejected program => exact .rejected program
  | compiled language program s => exact .compiled language program s s.machine.inclusions rfl

namespace Context

/-- **The context in which every function that asks the host** asks the resolver that is
installed. -/
def redirected (c : Context Lua.Session) : Context Lua.Session :=
  { c with holding := c.holding.redirected c.includes }

/-- The outcome of an operation, if it is a rendering, and the context behind it. -/
def answer (c : Context Lua.Session) : Call Lua.Session → Option Outcome × Context Lua.Session
  | .compile job => (none, (c.start job).context)
  | .execute state => (some (c.execute state).1, (c.execute state).2)
  | .setIncludes resolver => (none, c.setIncludes resolver)
  | .clearIncludes => (none, c.clearIncludes)

/-- **The outcomes of a sequence of operations,** with something done to the context before each
of them. -/
def outcomes (before : Context Lua.Session → Context Lua.Session) :
    Context Lua.Session → List (Call Lua.Session) → List (Option Outcome)
  | _, [] => []
  | c, call :: calls =>
    ((before c).answer call).1 :: outcomes before ((before c).answer call).2 calls

/-- **What is said of the session that each rendering finds** in a sequence of operations. -/
def Throughout (p : Lua.Session → Prop) :
    Context Lua.Session → List (Call Lua.Session) → Prop
  | _, [] => True
  | c, call :: calls =>
    (call.isRendering = true → c.holding.Satisfies p) ∧ Throughout p (c.answer call).2 calls

instance decidableThroughout {p : Lua.Session → Prop} [DecidablePred p] :
    (c : Context Lua.Session) → (calls : List (Call Lua.Session)) → Decidable (c.Throughout p calls)
  | _, [] => inferInstanceAs (Decidable True)
  | c, call :: calls =>
    have := decidableThroughout (p := p) (c.answer call).2 calls
    inferInstanceAs (Decidable (_ ∧ _))

/-- Less is said of the sessions. -/
theorem Throughout.mono {p q : Lua.Session → Prop} (hpq : ∀ s, p s → q s)
    {c : Context Lua.Session} {calls : List (Call Lua.Session)} (h : c.Throughout p calls) :
    c.Throughout q calls := by
  induction calls generalizing c with
  | nil => trivial
  | cons call calls ih =>
    refine ⟨fun hcall => ?_, ih h.2⟩
    have hp := h.1 hcall
    generalize c.holding = holding at hp ⊢
    cases holding with
    | compiled language program s => exact hpq s hp
    | _ => trivial

/-- Contexts that are alike but for whom the functions of their sessions ask. -/
structure Alike (c c' : Context Lua.Session) : Prop where
  runner : c'.runner = c.runner
  parserConfig : c'.parserConfig = c.parserConfig
  includes : c'.includes = c.includes
  holding : c.holding.Alike c'.holding

namespace Alike

variable {c c' : Context Lua.Session}

/-- A context is like itself. -/
theorem refl (c : Context Lua.Session) : c.Alike c := ⟨rfl, rfl, rfl, .refl _⟩

/-- Alike contexts with a resolver, or without one. -/
theorem withIncludes (h : c.Alike c') (includes : Option Resolver) :
    Alike { c with includes } { c' with includes } :=
  ⟨h.runner, h.parserConfig, rfl, h.holding⟩

/-- Alike contexts stay alike if all functions of one are made to ask the installed resolver. -/
theorem redirected (h : c.Alike c') : c.Alike c'.redirected where
  runner := h.runner
  parserConfig := h.parserConfig
  includes := h.includes
  holding := by
    have hholding := h.holding
    show c.holding.Alike (c'.holding.redirected c'.includes)
    generalize c.holding = holding, c'.holding = holding' at hholding
    cases hholding with
    | nothing => exact .nothing
    | rejected program => exact .rejected program
    | compiled language program s xs hsize =>
      rw [Holding.redirected, s.redirected_asking hsize]
      exact .compiled language program s _ (by simp)

/-- A compilation in alike contexts. -/
theorem start (h : c.Alike c') (job : Job Lua.Session) :
    (c.start job).context.Alike (c'.start job).context := by
  obtain ⟨runner, config, includes, holding⟩ := c
  obtain ⟨runner', config', includes', holding'⟩ := c'
  obtain ⟨hrunner, hconfig, hincludes, -⟩ := h
  dsimp only at hrunner hconfig hincludes
  subst hrunner hconfig hincludes
  exact refl _

/-- **A rendering of a forgetful session** has the same outcome in a context in which all functions
are made to ask the installed resolver. -/
theorem execute (h : c.Alike c') (hforget : c.holding.Satisfies Lua.Session.Forgetful)
    (state : Json) :
    (c'.redirected.execute state).1 = (c.execute state).1 ∧
      (c.execute state).2.Alike (c'.redirected.execute state).2 := by
  obtain ⟨runner', config', includes', holding⟩ := c
  obtain ⟨runner, config, includes, holding'⟩ := c'
  obtain ⟨hrunner, hconfig, hincludes, hholding⟩ := h
  dsimp only at hrunner hconfig hincludes hholding
  subst hrunner hconfig hincludes
  cases hholding with
  | nothing => exact ⟨rfl, refl _⟩
  | rejected program => exact ⟨rfl, refl _⟩
  | compiled language program s xs hsize =>
    have hs : s.Forgetful := hforget
    obtain ⟨ys, hys, hrender⟩ := hs.render_redirected state includes
    have hheld : Context.redirected ⟨runner, config, includes,
          .compiled language program (s.asking xs)⟩ =
        ⟨runner, config, includes, .compiled language program (s.redirected includes)⟩ := by
      rw [Context.redirected, Holding.redirected, s.redirected_asking hsize]
    rw [hheld]
    simp only [Context.execute, Renderable.render, hrender, true_and]
    exact ⟨rfl, rfl, rfl, .compiled language program _ ys hys⟩

/-- **One operation** has the same outcome if all functions are made to ask the installed resolver
before it, and the contexts behind it are alike. -/
theorem answer (h : c.Alike c') (call : Call Lua.Session)
    (hforget : call.isRendering = true → c.holding.Satisfies Lua.Session.Forgetful) :
    (c'.redirected.answer call).1 = (c.answer call).1 ∧
      (c.answer call).2.Alike (c'.redirected.answer call).2 := by
  cases call with
  | compile job => exact ⟨rfl, h.redirected.start job⟩
  | execute state =>
    obtain ⟨houtcome, halike⟩ := h.execute (hforget rfl) state
    exact ⟨congrArg some houtcome, halike⟩
  | setIncludes resolver => exact ⟨rfl, h.redirected.withIncludes (some resolver)⟩
  | clearIncludes => exact ⟨rfl, h.redirected.withIncludes none⟩

/-- **A sequence of operations** has the same outcomes. -/
theorem outcomes (h : c.Alike c') (calls : List (Call Lua.Session))
    (hforget : c.Throughout Lua.Session.Forgetful calls) :
    c'.outcomes Context.redirected calls = c.outcomes id calls := by
  induction calls generalizing c c' with
  | nil => rfl
  | cons call calls ih =>
    obtain ⟨hcall, hcalls⟩ := hforget
    obtain ⟨houtcome, halike⟩ := h.answer call hcall
    rw [Context.outcomes, Context.outcomes, houtcome, ih halike hcalls]
    rfl

end Alike

/-- **Each rendering asks the installed resolver,** in any sequence of operations in which no
rendering can come by a function of an earlier one: the outcomes are those that there are if,
before each operation, every function that asks the host is made to ask the resolver that is
installed then. In particular an earlier resolver has no part in them, and no content is given if
none is installed.

**Proof sketch.** By induction on the operations, the two contexts are alike but for whom the
functions of their sessions ask. A rendering in which no function of an earlier one can be come by
asks through the function that it is given alone, and that one asks the installed resolver in both
contexts. -/
theorem outcomes_redirected (c : Context Lua.Session) (calls : List (Call Lua.Session))
    (h : c.Throughout Lua.Session.Forgetful calls) :
    c.outcomes redirected calls = c.outcomes id calls :=
  (Alike.refl c).outcomes calls h

/-- The context in which a program has been compiled, or a new one if that fails. -/
def ofProgram (program : String) : Context Lua.Session :=
  match Lua.compile .empty ⟨"Lua5.4", program, []⟩ with
  | .ok s => { holding := .compiled "Lua5.4" program s }
  | .error _ => {}

/-- A program that asks for the content of a name whenever it renders. -/
def askingProgram : String := "local m = ... return function() return m.codet.include('a') end"

/-- A program that keeps the first function that it gets, and asks through that one. -/
def keepingProgram : String :=
  "local m = ... return function() k = k or m.codet.include return k('a') end"

/-- Renderings with a resolver, with another one, and with none. -/
def changingIncludes : List (Call Lua.Session) :=
  [.setIncludes fun _ => [.fulfill "first"], .execute .null,
    .setIncludes fun _ => [.fulfill "second"], .execute .null, .clearIncludes, .execute .null]

/-- A program that keeps nothing asks the two resolvers, and then fails. -/
theorem outcomes_redirected_asking :
    (ofProgram askingProgram).Throughout Lua.Session.Forgetful changingIncludes ∧
    (ofProgram askingProgram).outcomes redirected changingIncludes =
      [none, some (.output (some "first")), none, some (.output (some "second")), none,
        some (.failed (.unresolvedInclude "a"))] := by
  have hsilent : (ofProgram askingProgram).Throughout Lua.Session.Silent changingIncludes := by
    decide +kernel
  have hforgetful := hsilent.mono fun _ => Lua.Session.Silent.forgetful
  have houtcomes : (ofProgram askingProgram).outcomes id changingIncludes =
      [none, some (.output (some "first")), none, some (.output (some "second")), none,
        some (.failed (.unresolvedInclude "a"))] := by decide +kernel
  exact ⟨hforgetful,
    (outcomes_redirected (ofProgram askingProgram) changingIncludes hforgetful).trans houtcomes⟩

/-- A program that keeps the function asks the first resolver in all renderings. -/
example : (ofProgram keepingProgram).outcomes id changingIncludes =
    [none, some (.output (some "first")), none, some (.output (some "first")), none,
      some (.output (some "first"))] := by
  decide +kernel

end Context

end Stencil
