import Stencil.Proofs.Lua.Compiling
set_option autoImplicit false

/-!
# Rendering a session

A session that is ready gives the texts of its portions one behind the other, for a state that
supplies their values, or fails with the error of the first include that fails.

## Main definitions

* `Stencil.Lua.Outline.Supplies` — a state that supplies the values of portions.
* `Stencil.Lua.rendering` — the outcome for pieces.

## Main results

* `Stencil.Lua.treeValue_done` — the value for a state changes nothing in the machine.
* `Stencil.Lua.Session.Ready.render` — the outcome of a session that is ready.
-/

namespace Stencil.Lua

/-! ## The value for a state -/

mutual

/-- **The value for a tree of data** is always made, and changes nothing that was there before. -/
theorem treeValue_done (t : Json) (m : Machine) :
    ∃ v m', treeValue t m = .done v m' ∧ m.Extends m' := by
  cases t with
  | null => exact ⟨.nil, m, rfl, .refl m⟩
  | bool b => exact ⟨.bool b, m, rfl, .refl m⟩
  | int n =>
    rw [treeValue]
    cases Number.ofInt? n with
    | some i => exact ⟨.int i, m, rfl, .refl m⟩
    | none => exact ⟨.float (Float.ofInt n), m, rfl, .refl m⟩
  | float x => exact ⟨.float x, m, rfl, .refl m⟩
  | string s => exact ⟨.text s, m, rfl, .refl m⟩
  | array items =>
    obtain ⟨vs, m₁, hvalues, hmore⟩ := treeValues_done items m
    refine ⟨.table m₁.tables.size, m₁.pushTable { items := vs.toArray }, ?_,
      hmore.trans (.pushTable m₁ _)⟩
    rw [treeValue]
    exact Run.bind_done hvalues
  | object entries =>
    obtain ⟨es, m₁, hentries, hmore⟩ := treeEntries_done entries m
    refine ⟨.table m₁.tables.size, m₁.pushTable { entries := es }, ?_,
      hmore.trans (.pushTable m₁ _)⟩
    rw [treeValue]
    exact Run.bind_done hentries

/-- The values for the items of a list are always made. -/
theorem treeValues_done (ts : List Json) (m : Machine) :
    ∃ vs m', treeValues ts m = .done vs m' ∧ m.Extends m' := by
  cases ts with
  | nil => exact ⟨[], m, rfl, .refl m⟩
  | cons t ts =>
    obtain ⟨v, m₁, hvalue, hmore₁⟩ := treeValue_done t m
    obtain ⟨vs, m₂, hvalues, hmore₂⟩ := treeValues_done ts m₁
    refine ⟨v :: vs, m₂, ?_, hmore₁.trans hmore₂⟩
    rw [treeValues]
    exact (Run.bind_done hvalue).trans (Run.bind_done hvalues)

/-- The entries for those of a table are always made. -/
theorem treeEntries_done (entries : List (String × Json)) (m : Machine) :
    ∃ es m', treeEntries entries m = .done es m' ∧ m.Extends m' := by
  cases entries with
  | nil => exact ⟨[], m, rfl, .refl m⟩
  | cons e entries =>
    obtain ⟨k, t⟩ := e
    obtain ⟨v, m₁, hvalue, hmore₁⟩ := treeValue_done t m
    obtain ⟨es, m₂, hentries, hmore₂⟩ := treeEntries_done entries m₁
    refine ⟨if v.isNil then es else (.text k, v) :: es, m₂, ?_, hmore₁.trans hmore₂⟩
    rw [treeEntries]
    exact (Run.bind_done hvalue).trans (Run.bind_done hentries)

end

/-! ## Binding the includes -/

/-- What is put under a text is not among the items. -/
theorem Table.set_text (t : Table) (key : String) (v : Value) :
    t.set (.text key) v = { t with entries := replace (.text key) v t.entries } := rfl

/-- A value is found under a text at which it has just been put. -/
theorem Table.get_set_text (t : Table) (key : String) {v : Value} (hv : v.isNil = false) :
    (t.set (.text key) v).get (.text key) = v := by
  have hkey : (Value.text key).rawEq (.text key) = true := by simp [Value.text, Value.rawEq]
  have hlookup (entries : List (Value × Value)) :
      lookup (.text key) (replace (.text key) v entries) = v := by
    induction entries with
    | nil => simp [replace, hv, lookup, hkey]
    | cons e entries ih =>
      obtain ⟨k, w⟩ := e
      rw [replace]
      split
      · rename_i h
        rw [lookup, if_pos h]
      · rename_i h
        rw [lookup, if_neg h, ih]
  rw [set_text]
  exact hlookup t.entries

/-- **The includes are bound:** the host can be asked through the support table, and the variables
and functions stay as they are. -/
theorem bindIncludes_done {m : Machine} {support : Nat} (includes : Option Resolver)
    (hsupport : support < m.tables.size) :
    ∃ m', bindIncludes support (some includes) m = .done () m' ∧ Offers includes m' support ∧
      m'.cells = m.cells ∧ m'.closures = m.closures := by
  let i := m.inclusions.size
  let t := m.tables[support]
  refine ⟨{ m with
    tables := m.tables.modify support fun t => t.set includeKey (.inclusion i)
    inclusions := m.inclusions.push (some includes) }, rfl, ?_, rfl, rfl⟩
  refine ⟨t.set includeKey (.inclusion i), i, ?_, ?_, by simp [i]⟩
  · rw [Array.getElem?_modify, if_pos rfl, Array.getElem?_eq_getElem hsupport]
    rfl
  · exact Table.get_set_text t "include" rfl

/-! ## Arguments -/

/-- **What an argument is,** when the state has a value: the value, or an entry of it. -/
def Passed.of (m : Machine) (v : Value) : Passed → Value
  | state => v
  | property name => match v with
    | .table n => (m.tables.getD n {}).get (.text name)
    | _ => .nil

/-- **A state supplies the values of portions,** whatever machine its own value is made in: those
that the parameters stand for show the texts. -/
def Outline.Supplies (o : Outline) (text : String → String) (portions : List Portion)
    (state : Json) : Prop :=
  ∀ m v m', treeValue state m = .done v m' →
    (∀ a ∈ o.arguments, a = .state ∨ ∃ n, v = .table n) ∧
    ∀ p ∈ portions, p.Supplied text
      ((o.parameters.map String.toList).zip (o.arguments.map (Passed.of m' v))) m'

section Arguments

variable {f : Frame} {m : Machine} {v : Value}

/-- The value of an argument. -/
theorem evaluate_passed (fuel : Nat) (hstate : Binds m f.env "__state".toList v) {a : Passed}
    {x : Exp} (hx : a.Stands x) (ha : a = .state ∨ ∃ n, v = .table n) :
    evaluate (fuel + 2) f x m = .done (a.of m v) m := by
  cases a with
  | state =>
    obtain rfl := hx
    exact evaluate_var hstate
  | property name =>
    obtain ⟨l, rfl⟩ := hx
    obtain ⟨n, rfl⟩ := ha.resolve_left (by simp)
    exact evaluate_index (evaluate_var hstate) evaluate_string

/-- **The values of the arguments** are those of each, one for each. -/
theorem evaluateList_passed (fuel : Nat) (hstate : Binds m f.env "__state".toList v)
    {as : List Passed} {xs : List Exp} (hxs : List.Forall₂ Passed.Stands as xs)
    (has : ∀ a ∈ as, a = .state ∨ ∃ n, v = .table n) :
    evaluateList (fuel + as.length + 4) f xs m = .done (as.map (Passed.of m v)) m := by
  induction hxs with
  | nil =>
    rw [evaluateList]
    rfl
  | @cons a x as xs hx hxs ih =>
    have hmore := ih fun b hb => has b (by simp [hb])
    cases hxs with
    | nil =>
      have hvalue := evaluate_passed (fuel + 1) hstate hx (has a (by simp))
      cases a with
      | state =>
        obtain rfl := hx
        exact evaluateList_value rfl (by simp) hvalue
      | property name =>
        obtain ⟨l, rfl⟩ := hx
        exact evaluateList_value rfl (by simp) hvalue
    | cons hx' hxs' =>
      exact evaluateList_cons (evaluate_passed _ hstate hx (has a (by simp))) hmore

end Arguments

/-! ## Rendering -/

section Rendering

variable {includes : Option Resolver} {o : Outline} {portions : List Portion} {support : Nat}
  {text : String → String}

/-- **The function that a program gives** renders the portions: their texts one behind the other, or
the error of the first include that fails. -/
theorem call_entry (fuel : Nat) {m : Machine} {n : Nat} {v : Value}
    (h : Renders o portions support m n) (hhost : Offers includes m support)
    (hnodup : o.parameters.Nodup) (hnames : ∀ p ∈ portions, ∀ name ∈ p.names, Harmless name.toList)
    (has : ∀ a ∈ o.arguments, a = .state ∨ ∃ n, v = .table n)
    (hsupplied : ∀ p ∈ portions, p.Supplied text
      ((o.parameters.map String.toList).zip (o.arguments.map (Passed.of m v))) m)
    (hlength : portions.length < 2 ^ 63) :
    match (portions.map (Portion.resolve text)).mapM (Piece.content includes) with
    | .ok contents => ∃ m',
        call (fuel + o.arguments.length + 27 + portions.length) .start (.closure n) [v] m =
          .done [.string (contents.map Bytes.ofText).flatten] m'
    | .error e => ∃ m',
        call (fuel + o.arguments.length + 27 + portions.length) .start (.closure n) [v] m =
          .raised (.failure (.host e)) m' := by
  obtain ⟨c, k, r, hc, hr, hparams⟩ := h
  obtain ⟨xs, l, hbody, hxs⟩ := hc.body
  let f := c.frame .start "__state".toList m.cells.size
  let m₁ := m.pushCell v
  have hmore : m.Extends m₁ := .pushCell m v
  have hrender : Binds m₁ f.env "__render".toList (.closure k) :=
    (hc.render.grow hmore.cells).cons (by simp)
  have hargs := evaluateList_passed (fuel + 20 + portions.length) (m := m₁) (f := f)
    (.declared rfl) hxs has
  have hof : o.arguments.map (Passed.of m₁ v) = o.arguments.map (Passed.of m v) := rfl
  rw [hof, show fuel + 20 + portions.length + o.arguments.length + 4 =
    fuel + o.arguments.length + 23 + portions.length + 1 by omega] at hargs
  have hg : evaluate (fuel + o.arguments.length + 23 + portions.length + 1) f
      (.var "__render".toList) m₁ = .done (.closure k) m₁ := evaluate_var hrender
  have hgiven : ∀ p ∈ portions,
      p.Supplied text (r.params.zip (o.arguments.map (Passed.of m v))) m₁ := by
    rw [hparams]
    exact hsupplied
  have hcall := call_render (fuel + o.arguments.length) .start
    (o.arguments.map (Passed.of m v)) (hr.grow hmore.cells hmore.closures) (hhost.extend hmore)
    (by rw [hparams]; exact hnodup.map fun _ _ => String.toList_inj.mp) hnames hgiven
    (by decide) (by decide) hlength
  rw [show fuel + o.arguments.length + 27 + portions.length =
      fuel + o.arguments.length + 26 + portions.length + 1 by omega,
    call_closure hc.closure hc.params hc.variadic (by decide) (by decide), hbody,
    show fuel + o.arguments.length + 26 + portions.length =
      fuel + o.arguments.length + 23 + portions.length + 3 by omega]
  cases hcontents : (portions.map (Portion.resolve text)).mapM (Piece.content includes) with
  | ok contents =>
    rw [hcontents] at hcall
    obtain ⟨m', hcall⟩ := hcall
    exact ⟨m', congrArg Step.results
      (executeBlock_returned (execute_yields_closure hg hargs hcall))⟩
  | error e =>
    rw [hcontents] at hcall
    obtain ⟨m', hcall⟩ := hcall
    exact ⟨m', congrArg Step.results
      (executeBlock_raised (execute_yields_closure_raised hg hargs hcall))⟩

/-- A list that cannot be made has a member for which it fails. -/
theorem exists_of_mapM_eq_error {α β ε : Type} {g : α → Except ε β} {as : List α} {e : ε}
    (h : as.mapM g = .error e) : ∃ a ∈ as, g a = .error e := by
  induction as with
  | nil => cases h
  | cons a as ih =>
    rw [List.mapM_cons] at h
    cases ha : g a with
    | error e' =>
      rw [ha] at h
      cases h
      exact ⟨a, List.mem_cons_self, ha⟩
    | ok b =>
      cases has : as.mapM g with
      | error e' =>
        rw [ha, has] at h
        cases h
        obtain ⟨a', hmem, ha'⟩ := ih has
        exact ⟨a', List.mem_cons_of_mem _ hmem, ha'⟩
      | ok bs =>
        rw [ha, has] at h
        cases h

/-- Why an include fails: its name is blank, or nobody handles the request. -/
theorem resolveInclude_error {name : String} {e : Error}
    (h : resolveInclude includes name = .error e) :
    e = .invalidArgument "name" "include name must not be blank" ∨ e = .unresolvedInclude name := by
  unfold resolveInclude IncludeRequest.new at h
  by_cases hblank : Text.isBlankString name
  · rw [if_pos hblank] at h
    cases h
    exact .inl rfl
  · rw [if_neg hblank] at h
    dsimp only at h
    split_ifs at h
    cases h
    exact .inr rfl

/-- An include that fails does so with an error that a rendering keeps. -/
theorem renderError_of_content {p : Piece} {e : Error} (h : p.content includes = .error e) :
    Failure.renderError (.host e) = e := by
  cases p with
  | literal text => cases h
  | inclusion name =>
    obtain rfl | rfl := resolveInclude_error h
    · rfl
    · rfl

/-- The bytes of texts are those of the texts joined. -/
theorem flatten_ofText (texts : List String) :
    (texts.map Bytes.ofText).flatten = Bytes.ofText (String.join texts) := by
  induction texts with
  | nil => rfl
  | cons text texts ih =>
    rw [List.map_cons, List.flatten_cons, ih, String.join_cons]
    simp [Bytes.ofText, Bytes.ofChars]

/-- **The outcome for pieces:** their texts one behind the other, or the error of the first include
that fails. -/
def rendering (includes : Option Resolver) (pieces : List Piece) : Outcome :=
  match pieces.mapM (Piece.content includes) with
  | .ok contents => .output (some (String.join contents))
  | .error e => .failed e

/-- The outcome for the bytes of a text. -/
theorem outcomeOf_ofText (text : String) :
    outcomeOf (.string (Bytes.ofText text)) = .output (some text) := by
  have htext : Bytes.toText? (Bytes.ofText text) = some text := by
    rw [Bytes.ofText, Bytes.toText?_ofChars, String.ofList_toList]
  simp only [outcomeOf, Value.isNil, Value.bytes?, htext]

/-- **A session that is ready** renders its portions for a state that supplies their values.

**Proof sketch.** The includes are bound, the value for the state is made, and the function that
the program gives is called. An error of the host that comes out of the call is its own error. -/
theorem Session.Ready.render {s : Session} (h : s.Ready o portions) {state : Json}
    (includes : Option Resolver) (hnodup : o.parameters.Nodup)
    (hnames : ∀ p ∈ portions, ∀ name ∈ p.names, Harmless name.toList)
    (hstate : o.Supplies text portions state) (hlength : portions.length < 2 ^ 63) :
    (s.render state includes).1 = rendering includes (portions.map (Portion.resolve text)) := by
  obtain ⟨n, hentry, hrenders⟩ := h.entry
  obtain ⟨m₁, hbind, hoffers, hcells, hclosures⟩ := bindIncludes_done includes h.support
  have hrenders₁ : Renders o portions s.support m₁ n := by
    refine hrenders.grow ?_ ?_
    · rw [hcells]
      exact .refl _
    · rw [hclosures]
      exact .refl _
  obtain ⟨v, m₂, hvalue, hmore⟩ := treeValue_done state m₁
  obtain ⟨has, hsupplied⟩ := hstate m₁ v m₂ hvalue
  obtain ⟨fuel, hfuel⟩ := Nat.exists_eq_add_of_le' h.steps
  have hcall := call_entry (fuel + 73) (hrenders₁.grow hmore.cells hmore.closures)
    (hoffers.extend hmore) hnodup hnames has hsupplied hlength
  rw [show fuel + 73 + o.arguments.length + 27 + portions.length = s.steps by omega, ← hentry]
    at hcall
  -- What is left of a rendering once the call has ended.
  have hrun {result : Except Value Arguments} {m₃ : Machine}
      (hprotect : Run.protect (call s.steps .start s.entry [v]) m₂ = .done result m₃) :
      ∃ m₄, s.renderRun state includes s.machine = .done result m₄ := by
    rw [renderRun, Run.bind_done hbind, Run.bind_done hvalue, Run.bind_done hprotect]
    exact ⟨_, rfl⟩
  rw [rendering]
  cases hcontents : (portions.map (Portion.resolve text)).mapM (Piece.content includes) with
  | ok contents =>
    rw [hcontents] at hcall
    obtain ⟨m₃, hcall⟩ := hcall
    obtain ⟨m₄, hrun⟩ := hrun (Run.protect_done hcall)
    simp only [Session.render, hrun]
    rw [List.headD_cons, flatten_ofText, outcomeOf_ofText]
  | error e =>
    rw [hcontents] at hcall
    obtain ⟨m₃, hcall⟩ := hcall
    obtain ⟨m₄, hrun⟩ := hrun (Run.protect_raised hcall)
    obtain ⟨p, -, hp⟩ := exists_of_mapM_eq_error hcontents
    simp only [Session.render, hrun, Failure.ofValue, renderError_of_content hp]

end Rendering

end Stencil.Lua
