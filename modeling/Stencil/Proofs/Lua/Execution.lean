import Stencil.Lua.Eval
set_option autoImplicit false

/-!
# Steps of running programs

What single expressions and statements do to a machine, for any number of steps that is large
enough. A larger proof about a program puts these together, one for each node of its tree.

## Main definitions

* `Stencil.Lua.Machine.Extends` — a machine with more in it, and nothing changed.
* `Stencil.Lua.Binds` — a name that stands for a value.

## Main results

* `Stencil.Lua.evaluate_var`, `evaluateAll_call`, `call_closure` — expressions.
* `Stencil.Lua.executeBlock_next`, `executeBlock_returned`, `executeBlock_raised` — statements of
  a block.
-/

namespace Stencil.Lua

/-! ## Actions -/

namespace Run

variable {α β : Type}

/-- An action behind one that is done. -/
theorem bind_done {x : Run α} {f : α → Run β} {m m' : Machine} {a : α} (h : x m = .done a m') :
    (x >>= f) m = f a m' := by
  show Run.bind x f m = _
  unfold Run.bind
  rw [h]

/-- An action behind one that raises an error. -/
theorem bind_raised {x : Run α} {f : α → Run β} {m m' : Machine} {e : Value}
    (h : x m = .raised e m') : (x >>= f) m = .raised e m' := by
  show Run.bind x f m = _
  unfold Run.bind
  rw [h]

/-- An action behind one that has no steps left. -/
theorem bind_exhausted {x : Run α} {f : α → Run β} {m : Machine} (h : x m = .exhausted) :
    (x >>= f) m = .exhausted := by
  show Run.bind x f m = _
  unfold Run.bind
  rw [h]

/-- Two actions one behind the other are done if the first is done and then the second. -/
theorem bind_eq_done_iff {x : Run α} {f : α → Run β} {m m' : Machine} {b : β} :
    (x >>= f) m = .done b m' ↔ ∃ a m₁, x m = .done a m₁ ∧ f a m₁ = .done b m' := by
  show Run.bind x f m = _ ↔ _
  unfold Run.bind
  cases x m <;> simp [and_assoc]

/-- A value is given without a change of the machine. -/
theorem pure_eq_done_iff {a b : α} {m m' : Machine} :
    (Pure.pure a : Run α) m = .done b m' ↔ a = b ∧ m = m' := by
  show Step.done a m = _ ↔ _
  rw [Step.done.injEq]

/-- An error that becomes a value. -/
theorem protect_raised {x : Run α} {m m' : Machine} {e : Value} (h : x m = .raised e m') :
    protect x m = .done (.error e) m' := by
  unfold protect
  rw [h]

/-- An action that has no steps left has none when its error becomes a value. -/
theorem protect_exhausted {x : Run α} {m : Machine} (h : x m = .exhausted) :
    protect x m = .exhausted := by
  unfold protect
  rw [h]

/-- The value of an action without an error. -/
theorem protect_done {x : Run α} {m m' : Machine} {a : α} (h : x m = .done a m') :
    protect x m = .done (.ok a) m' := by
  unfold protect
  rw [h]

end Run

/-! ## Machines with more in them -/

/-- What is at a place of an array is at the same place of another. -/
def Grows {α : Type} (xs ys : Array α) : Prop :=
  ∀ (i : Nat) (a : α), xs[i]? = some a → ys[i]? = some a

namespace Grows

variable {α : Type} {xs ys zs : Array α}

/-- An array grows to itself. -/
theorem refl (xs : Array α) : Grows xs xs := fun _ _ h => h

/-- An array that has grown goes on growing. -/
theorem trans (h : Grows xs ys) (h' : Grows ys zs) : Grows xs zs :=
  fun i a hx => h' i a (h i a hx)

/-- An array grows by one more at its end. -/
theorem push (xs : Array α) (a : α) : Grows xs (xs.push a) := by
  intro i b h
  obtain ⟨hi, hb⟩ := Array.getElem?_eq_some_iff.mp h
  rw [Array.getElem?_push_lt hi, hb]

end Grows

/-- **A machine with more in it,** of which nothing that was there before has changed. -/
structure Machine.Extends (m m' : Machine) : Prop where
  tables : Grows m.tables m'.tables
  cells : Grows m.cells m'.cells
  closures : Grows m.closures m'.closures
  inclusions : Grows m.inclusions m'.inclusions
  strings : m'.strings = m.strings

/-- A machine with one more variable. -/
def Machine.pushCell (m : Machine) (v : Value) : Machine := { m with cells := m.cells.push v }

/-- A machine with one more function. -/
def Machine.pushClosure (m : Machine) (c : Closure) : Machine :=
  { m with closures := m.closures.push c }

/-- A machine with one more table. -/
def Machine.pushTable (m : Machine) (t : Table) : Machine := { m with tables := m.tables.push t }

/-- The machine with another value for a variable. -/
def Machine.setCell (m : Machine) (n : Nat) (v : Value) : Machine :=
  { m with cells := m.cells.setIfInBounds n v }

namespace Machine.Extends

/-- A machine extends itself. -/
theorem refl (m : Machine) : m.Extends m := ⟨.refl _, .refl _, .refl _, .refl _, rfl⟩

/-- More than more is more. -/
theorem trans {m₁ m₂ m₃ : Machine} (h : m₁.Extends m₂) (h' : m₂.Extends m₃) : m₁.Extends m₃ :=
  ⟨h.tables.trans h'.tables, h.cells.trans h'.cells, h.closures.trans h'.closures,
    h.inclusions.trans h'.inclusions, h'.strings.trans h.strings⟩

/-- One more variable changes nothing. -/
theorem pushCell (m : Machine) (v : Value) : m.Extends (m.pushCell v) :=
  ⟨.refl _, .push _ v, .refl _, .refl _, rfl⟩

/-- One more function changes nothing. -/
theorem pushClosure (m : Machine) (c : Closure) : m.Extends (m.pushClosure c) :=
  ⟨.refl _, .refl _, .push _ c, .refl _, rfl⟩

/-- One more table changes nothing. -/
theorem pushTable (m : Machine) (t : Table) : m.Extends (m.pushTable t) :=
  ⟨.push _ t, .refl _, .refl _, .refl _, rfl⟩

end Machine.Extends

/-! ## Names -/

/-- **A name that stands for a value.** -/
def Binds (m : Machine) (env : Env) (name : Ident) (x : Value) : Prop :=
  ∃ v, Env.find? env name = some v ∧ m.cells[v.cell]? = some x

namespace Binds

variable {m m' : Machine} {env : Env} {name : Ident} {x : Value}

/-- A name stands for one value. -/
theorem unique {y : Value} (h : Binds m env name x) (h' : Binds m env name y) : x = y := by
  obtain ⟨v, hv, hx⟩ := h
  obtain ⟨w, hw, hy⟩ := h'
  obtain rfl : v = w := Option.some.inj (hv.symm.trans hw)
  exact Option.some.inj (hx.symm.trans hy)

/-- A name stands for the same value in a machine whose variables have grown. -/
theorem grow (h : Binds m env name x) (hm : Grows m.cells m'.cells) : Binds m' env name x := by
  obtain ⟨v, hv, hx⟩ := h
  exact ⟨v, hv, hm _ _ hx⟩

/-- A name stands for the same value if another one is declared. -/
theorem cons (h : Binds m env name x) {v : Variable} (hv : v.name ≠ name) :
    Binds m (v :: env) name x := by
  obtain ⟨w, hw, hx⟩ := h
  refine ⟨w, ?_, hx⟩
  rw [Env.find?, List.find?_cons_of_neg (by simpa using hv)]
  exact hw

/-- The name of the innermost variable. -/
theorem head {v : Variable} (hx : m.cells[v.cell]? = some x) : Binds m (v :: env) v.name x :=
  ⟨v, List.find?_cons_of_pos (by simp), hx⟩

/-- The name of a variable that has just been declared. -/
theorem declared {v : Variable} (hv : v.cell = m.cells.size) :
    Binds (m.pushCell x) (v :: env) v.name x :=
  head (by simp [Machine.pushCell, hv])

/-- A name stands for the same value behind a variable that has just been declared. -/
theorem declare (h : Binds m env name x) {v : Variable} {y : Value} (hv : v.name ≠ name) :
    Binds (m.pushCell y) (v :: env) name x :=
  (h.grow (.push _ _)).cons hv

end Binds

/-- A frame with the variables that it has. -/
@[simp] theorem Frame.withEnv_env (f : Frame) : f.withEnv f.env = f := rfl

/-! ## Expressions -/

section Expressions

variable {fuel : Nat} {f : Frame} {m m₁ m₂ : Machine}

/-- **The value of a variable.** -/
theorem evaluate_var {name : Ident} {x : Value} (h : Binds m f.env name x) :
    evaluate (fuel + 1) f (.var name) m = .done x m := by
  obtain ⟨v, hv, hx⟩ := h
  rw [evaluate, hv]
  show Run.cell v.cell m = _
  rw [Run.cell, Array.getD_eq_getD_getElem?, hx]
  rfl

/-- The value of a text. -/
theorem evaluate_string {b : Bytes} :
    evaluate (fuel + 1) f (.string b) m = .done (.string b) m := by
  rw [evaluate]
  rfl

/-- **The value of an entry** of a table. -/
theorem evaluate_index {line n : Nat} {object key : Exp} {k : Value}
    (hobject : evaluate fuel f object m = .done (.table n) m₁)
    (hkey : evaluate fuel f key m₁ = .done k m₂) :
    evaluate (fuel + 1) f (.index line object key) m =
      .done ((m₂.tables.getD n {}).get k) m₂ := by
  rw [evaluate]
  simp only [Run.bind_done hobject, Run.bind_done hkey]
  rfl

/-- **The value of a global** is an entry of the table of globals. -/
theorem evaluate_global {name : Ident} {n : Nat} (hname : Env.find? f.env name = none)
    (henv : Binds m f.env environmentName (.table n)) :
    evaluate (fuel + 2) f (.var name) m =
      .done ((m.tables.getD n {}).get (.string (Bytes.ofChars name))) m := by
  rw [evaluate, hname]
  simp only [Run.bind_done (evaluate_var henv)]
  rfl

/-- **The value of a function** sees the variables around it. -/
theorem evaluate_function (fuel : Nat) (f : Frame) (m : Machine) (params : List Ident)
    (variadic : Bool) (body : Block) (endLine : Nat) :
    evaluate (fuel + 1) f (.function params variadic body endLine) m =
      .done (.closure m.closures.size)
        (m.pushClosure ⟨params, variadic, body, f.env, f.level, f.chunk⟩) := by
  rw [evaluate]
  rfl

/-- The value of an operation on two values that are both needed. -/
theorem evaluate_binary {line : Nat} {op : BinaryOp} {left right : Exp} {a b v : Value}
    (hand : op ≠ .and) (hor : op ≠ .or) (ha : evaluate fuel f left m = .done a m₁)
    (hb : evaluate fuel f right m₁ = .done b m₂) (hv : op.apply a b = .ok v) :
    evaluate (fuel + 1) f (.binary line op left right) m = .done v m₂ := by
  rw [evaluate]
  simp only [Run.bind_done ha]
  cases op
  case and => exact absurd rfl hand
  case or => exact absurd rfl hor
  all_goals
    simp only [Run.bind_done hb, hv]
    rfl

/-- All values of an expression that has exactly one. -/
theorem evaluateAll_one {e : Exp} {v : Value} (hcall : e.isCall = false)
    (hvarargs : ∀ line, e ≠ .varargs line) (h : evaluate fuel f e m = .done v m₁) :
    evaluateAll (fuel + 1) f e m = .done [v] m₁ := by
  cases e with
  | call => cases hcall
  | method => cases hcall
  | varargs line => exact absurd rfl (hvarargs line)
  | _ =>
    rw [evaluateAll]
    · exact Run.bind_done h
    all_goals simp

/-- **All values of a call.** -/
theorem evaluateAll_call {line : Nat} {g : Exp} {args : List Exp} {v : Value} {vs : Arguments}
    (hg : evaluate fuel f g m = .done v m₁) (hargs : evaluateList fuel f args m₁ = .done vs m₂) :
    evaluateAll (fuel + 1) f (.call line g args) m =
      callAt fuel f line (f.traceAt line) (f.describe g) v vs m₂ := by
  rw [evaluateAll]
  simp only [Run.bind_done hg, Run.bind_done hargs]

/-- The value of a call is the first of its values. -/
theorem evaluate_call {line : Nat} {g : Exp} {args : List Exp} {vs : Arguments}
    (h : evaluateAll fuel f (.call line g args) m = .done vs m₁) :
    evaluate (fuel + 1) f (.call line g args) m = .done (vs.headD .nil) m₁ := by
  rw [evaluate]
  exact Run.bind_done h

/-- The values of one expression. -/
theorem evaluateList_one {e : Exp} : evaluateList (fuel + 1) f [e] = evaluateAll fuel f e := by
  rw [evaluateList]

/-- The values of one expression that has exactly one. -/
theorem evaluateList_value {e : Exp} {v : Value} (hcall : e.isCall = false)
    (hvarargs : ∀ line, e ≠ .varargs line) (h : evaluate fuel f e m = .done v m₁) :
    evaluateList (fuel + 2) f [e] m = .done [v] m₁ := by
  rw [evaluateList_one]
  exact evaluateAll_one hcall hvarargs h

/-- The values of more than one expression. -/
theorem evaluateList_cons {e e' : Exp} {es : List Exp} {v : Value} {vs : Arguments}
    (h : evaluate fuel f e m = .done v m₁)
    (hs : evaluateList fuel f (e' :: es) m₁ = .done vs m₂) :
    evaluateList (fuel + 1) f (e :: e' :: es) m = .done (v :: vs) m₂ := by
  rw [evaluateList]
  · simp only [Run.bind_done h, Run.bind_done hs]
    rfl
  · simp

end Expressions

/-! ## Calls -/

section Calls

variable {fuel : Nat} {m : Machine}

/-- A call of a function at a line. -/
theorem callAt_function {f : Frame} {line : Nat} {trace : Trace} {what : String} {v : Value}
    (h : v.isFunction = true) (args : Arguments) :
    callAt (fuel + 1) f line trace what v args = call fuel trace v args := by
  rw [callAt, if_pos h]

/-- One new variable. -/
theorem declare_one (f : Frame) (name : Ident) (values : Arguments) (m : Machine) :
    f.declare [name] values m =
      .done (f.bind name m.cells.size) (m.pushCell (values.headD .nil)) := rfl

/-- **New variables** for names, with values in order. What there was before stays as it is, and a
name that is given once stands for its value. -/
theorem declare_done (f : Frame) (names : List Ident) (values : Arguments) (m : Machine) :
    ∃ env m', f.declare names values m = .done env m' ∧ m.Extends m' ∧ m'.tables = m.tables ∧
      (∀ name x, name ∉ names → Binds m f.env name x → Binds m' env name x) ∧
      (names.Nodup → ∀ name x, (name, x) ∈ names.zip values → Binds m' env name x) := by
  induction names generalizing f values m with
  | nil => exact ⟨f.env, m, rfl, .refl m, rfl, fun _ _ _ h => h, by simp⟩
  | cons first names ih =>
    let g := f.withEnv (f.bind first m.cells.size)
    obtain ⟨env, m', hdeclare, hmore, htables, hothers, hbound⟩ :=
      ih g values.tail (m.pushCell (values.headD .nil))
    refine ⟨env, m', hdeclare, (Machine.Extends.pushCell m _).trans hmore, htables, ?_, ?_⟩
    · intro name x hname h
      rw [List.mem_cons, not_or] at hname
      exact hothers name x hname.2 (h.declare (Ne.symm hname.1))
    · intro hnodup name x hmem
      obtain ⟨hfirst, hnodup⟩ := List.nodup_cons.mp hnodup
      cases values with
      | nil => simp at hmem
      | cons v values =>
        rw [List.zip_cons_cons, List.mem_cons] at hmem
        rcases hmem with heq | hmem
        · obtain ⟨rfl, rfl⟩ := Prod.mk.inj heq
          exact hothers name x hfirst (.declared rfl)
        · exact hbound hnodup name x hmem

/-- The results of a function whose body ends in a given way. -/
def Step.results : Step Signal → Step Arguments
  | .done (.returned values) m => .done values m
  | .done _ m => .done [] m
  | .raised e m => .raised e m
  | .exhausted => .exhausted

/-- The results of a function are those of the run of its body. -/
theorem bind_results (x : Run Signal) (m : Machine) :
    ((do
      match ← x with
      | .returned values => return values
      | _ => return []) : Run Arguments) m = (x m).results := by
  cases hx : x m with
  | done signal m' =>
    rw [Run.bind_done hx]
    cases signal <;> rfl
  | raised e m' =>
    rw [Run.bind_raised hx]
    rfl
  | exhausted =>
    simp only [bind, Run.bind, hx]
    rfl

/-- The frame in which a chunk runs; a function runs in one with its parameters in front. -/
def Closure.chunkFrame (c : Closure) (trace : Trace) (args : Arguments) : Frame :=
  ⟨c.env, args, c.level + 1, c.chunk, trace⟩

/-- **A call of a function,** whose parameters have become new variables. -/
theorem call_function {trace : Trace} {n : Nat} {c : Closure} (hc : m.closures[n]? = some c)
    (hvariadic : c.variadic = false) (hdepth : trace.depth < maxDepth)
    (hcrossings : trace.crossings < maxCrossings) {args : Arguments} {env : Env} {m' : Machine}
    (hdeclare : (c.chunkFrame trace []).declare c.params args m = .done env m') :
    call (fuel + 1) trace (.closure n) args m =
      (executeBlock fuel ((c.chunkFrame trace []).withEnv env) env.length c.body c.body
        m').results := by
  have hcall : call (fuel + 1) trace (.closure n) args m =
      ((do
        match ← executeBlock fuel ((c.chunkFrame trace []).withEnv env) env.length
          c.body c.body with
        | .returned values => return values
        | _ => return []) : Run Arguments) m' := by
    rw [call]
    simp only [Run.bind_done (x := Run.get) (m := m) rfl, hc]
    rw [if_neg (by omega), if_neg (by omega), hvariadic]
    exact Run.bind_done hdeclare
  rw [hcall]
  exact bind_results _ _

/-- The frame in which a function of one parameter runs, when the parameter is the variable of a
number. -/
def Closure.frame (c : Closure) (trace : Trace) (parameter : Ident) (cell : Nat) : Frame :=
  ⟨⟨parameter, cell, c.level + 1⟩ :: c.env, [], c.level + 1, c.chunk, trace⟩

/-- **A call of a function of one parameter,** which becomes a new variable. -/
theorem call_closure {trace : Trace} {n : Nat} {c : Closure} {parameter : Ident}
    (hc : m.closures[n]? = some c) (hparams : c.params = [parameter])
    (hvariadic : c.variadic = false) (hdepth : trace.depth < maxDepth)
    (hcrossings : trace.crossings < maxCrossings) (args : Arguments) :
    call (fuel + 1) trace (.closure n) args m =
      (executeBlock fuel (c.frame trace parameter m.cells.size) (c.env.length + 1) c.body c.body
        (m.pushCell (args.headD .nil))).results :=
  call_function hc hvariadic hdepth hcrossings
    (by rw [hparams]; exact declare_one _ parameter args m)

/-- **A call of a chunk,** which has no parameters but extra arguments. -/
theorem call_chunk {trace : Trace} {n : Nat} {c : Closure} (hc : m.closures[n]? = some c)
    (hparams : c.params = []) (hvariadic : c.variadic = true) (hdepth : trace.depth < maxDepth)
    (hcrossings : trace.crossings < maxCrossings) (args : Arguments) :
    call (fuel + 1) trace (.closure n) args m =
      (executeBlock fuel (c.chunkFrame trace args) c.env.length c.body c.body m).results := by
  have hcall : call (fuel + 1) trace (.closure n) args m =
      ((do
        match ← executeBlock fuel (c.chunkFrame trace args) c.env.length c.body c.body with
        | .returned values => return values
        | _ => return []) : Run Arguments) m := by
    rw [call]
    simp only [Run.bind_done (x := Run.get) (m := m) rfl, hc]
    rw [if_neg (by omega), if_neg (by omega), hvariadic, hparams]
    rfl
  rw [hcall]
  exact bind_results _ m

end Calls

/-! ## Statements -/

section Statements

variable {fuel : Nat} {f : Frame} {m m₁ m₂ : Machine}

/-- **A declaration** of one variable. -/
theorem execute_declare {name : Ident} {values : List Exp} {vs : Arguments}
    (h : evaluateList fuel f values m = .done vs m₁) :
    execute (fuel + 1) f (.declare [(name, .regular)] values) m =
      .done (.next (f.bind name m₁.cells.size)) (m₁.pushCell (vs.headD .nil)) := by
  rw [execute]
  simp only [Run.bind_done h]
  cases vs <;> rfl

/-- A declaration whose value raises an error. -/
theorem execute_declare_raised {name : Ident} {values : List Exp} {error : Value}
    (h : evaluateList fuel f values m = .raised error m₁) :
    execute (fuel + 1) f (.declare [(name, .regular)] values) m = .raised error m₁ := by
  rw [execute]
  exact Run.bind_raised h

/-- **A declaration of a function,** which sees itself. -/
theorem execute_declareFunction {name : Ident} {params : List Ident} {body : Block}
    {endLine : Nat} :
    execute (fuel + 2) f (.declareFunction name (.function params false body endLine)) m =
      .done (.next (f.bind name m.cells.size))
        ((m.pushCell (.closure m.closures.size)).pushClosure
          ⟨params, false, body, f.bind name m.cells.size, f.level, f.chunk⟩) := by
  have hset : (m.cells.push .nil).setIfInBounds m.cells.size (.closure m.closures.size) =
      m.cells.push (.closure m.closures.size) := by
    apply Array.ext
    · simp
    · intro i h h'
      grind
  have hvalue := evaluate_function fuel (f.withEnv (f.bind name m.cells.size)) (m.pushCell .nil)
    params false body endLine
  rw [execute, Run.bind_done (x := Run.newCell .nil) (m := m) rfl]
  refine (Run.bind_done hvalue).trans ?_
  simp only [Machine.pushCell, Machine.pushClosure, ← hset]
  rfl

/-- An assignment to a variable. -/
theorem execute_assign_var {line : Nat} {name : Ident} {e : Exp} {x : Variable} {vs : Arguments}
    (hname : Env.find? f.env name = some x)
    (h : evaluateList (fuel + 2) f [e] m = .done vs m₁) :
    execute (fuel + 3) f (.assign line [.var name] [e]) m =
      .done (.next f.env) (m₁.setCell x.cell (vs.headD .nil)) := by
  have htarget : evaluateTargets (fuel + 2) f [.var name] m = .done [.cell x.cell] m := by
    have hone : evaluateTarget (fuel + 1) f (.var name) m = .done (.cell x.cell) m := by
      rw [evaluateTarget, hname]
      rfl
    rw [evaluateTargets, Run.bind_done hone]
    rw [evaluateTargets]
    rfl
  rw [execute, Run.bind_done htarget, Run.bind_done h]
  rfl

/-- A call as a statement. -/
theorem execute_call {e : Exp} {vs : Arguments} (h : evaluateAll fuel f e m = .done vs m₁) :
    execute (fuel + 1) f (.call e) m = .done (.next f.env) m₁ := by
  rw [execute]
  exact Run.bind_done h

/-- A call as a statement that raises an error. -/
theorem execute_call_raised {e : Exp} {error : Value}
    (h : evaluateAll fuel f e m = .raised error m₁) :
    execute (fuel + 1) f (.call e) m = .raised error m₁ := by
  rw [execute]
  exact Run.bind_raised h

/-- A statement that chooses a block. -/
theorem execute_choose_yes {condition : Exp} {yes no : Block} {v : Value} {signal : Signal}
    (h : evaluate fuel f condition m = .done v m₁) (hv : v.truth = true)
    (hyes : executeBlock fuel f f.env.length yes yes m₁ = .done signal m₂) :
    execute (fuel + 1) f (.choose condition yes no) m = leaveScope f signal m₂ := by
  rw [execute]
  refine (Run.bind_done h).trans ?_
  simp only [hv, if_true]
  exact Run.bind_done hyes

/-- A statement that chooses a block that raises an error. -/
theorem execute_choose_raised {condition : Exp} {yes no : Block} {v error : Value}
    (h : evaluate fuel f condition m = .done v m₁) (hv : v.truth = true)
    (hyes : executeBlock fuel f f.env.length yes yes m₁ = .raised error m₂) :
    execute (fuel + 1) f (.choose condition yes no) m = .raised error m₂ := by
  rw [execute]
  refine (Run.bind_done h).trans ?_
  simp only [hv, if_true]
  exact Run.bind_raised hyes

/-- A statement that has no block to choose does nothing. -/
theorem execute_choose_no {condition : Exp} {yes : Block} {v : Value}
    (h : evaluate (fuel + 1) f condition m = .done v m₁) (hv : v.truth = false) :
    execute (fuel + 2) f (.choose condition yes []) m = .done (.next f.env) m₁ := by
  have hno : executeBlock (fuel + 1) f f.env.length [] [] m₁ = .done (.next f.env) m₁ := by
    rw [executeBlock]
    rfl
  rw [execute]
  refine (Run.bind_done h).trans ?_
  simp only [hv]
  exact Run.bind_done hno

/-- A `return` of one value. -/
theorem execute_yields_value {e : Exp} {v : Value} (hcall : e.isCall = false)
    (hvarargs : ∀ line, e ≠ .varargs line) (h : evaluate fuel f e m = .done v m₁) :
    execute (fuel + 3) f (.yields [e]) m = .done (.returned [v]) m₁ := by
  have hlist := evaluateList_value hcall hvarargs h
  cases e with
  | call => cases hcall
  | _ =>
    rw [execute]
    · rw [Run.bind_done hlist]
      rfl
    · simp

/-- A `return` of a call of a function of the program, which takes the place of the caller. -/
theorem execute_yields_closure {line n : Nat} {g : Exp} {args : List Exp} {vs results : Arguments}
    {m₃ : Machine} (hg : evaluate (fuel + 1) f g m = .done (.closure n) m₁)
    (hargs : evaluateList (fuel + 1) f args m₁ = .done vs m₂)
    (hcall : call fuel f.trace (.closure n) vs m₂ = .done results m₃) :
    execute (fuel + 2) f (.yields [.call line g args]) m = .done (.returned results) m₃ := by
  rw [execute]
  refine (Run.bind_done hg).trans ((Run.bind_done hargs).trans ?_)
  refine Run.bind_done ?_
  rw [callAt_function rfl, hcall]

/-- A `return` of a call that raises an error. -/
theorem execute_yields_closure_raised {line n : Nat} {g : Exp} {args : List Exp} {vs : Arguments}
    {error : Value} {m₃ : Machine} (hg : evaluate (fuel + 1) f g m = .done (.closure n) m₁)
    (hargs : evaluateList (fuel + 1) f args m₁ = .done vs m₂)
    (hcall : call fuel f.trace (.closure n) vs m₂ = .raised error m₃) :
    execute (fuel + 2) f (.yields [.call line g args]) m = .raised error m₃ := by
  rw [execute]
  refine (Run.bind_done hg).trans ((Run.bind_done hargs).trans ?_)
  refine Run.bind_raised ?_
  rw [callAt_function rfl, hcall]

/-- A `return` of a call of a library function. -/
theorem execute_yields_builtin {line : Nat} {b : Builtin} {g : Exp} {args : List Exp}
    {vs results : Arguments} {m₃ : Machine}
    (hg : evaluate (fuel + 1) f g m = .done (.builtin b) m₁)
    (hargs : evaluateList (fuel + 1) f args m₁ = .done vs m₂)
    (hcall : call fuel (f.traceAt line) (.builtin b) vs m₂ = .done results m₃) :
    execute (fuel + 2) f (.yields [.call line g args]) m = .done (.returned results) m₃ := by
  rw [execute]
  refine (Run.bind_done hg).trans ((Run.bind_done hargs).trans ?_)
  refine Run.bind_done ?_
  rw [callAt_function rfl, hcall]

/-- An empty block. -/
theorem executeBlock_nil {base : Nat} {whole : Block} :
    executeBlock (fuel + 1) f base whole [] m = .done (.next f.env) m := by
  rw [executeBlock]
  rfl

/-- **A block goes on** behind a statement that is done. -/
theorem executeBlock_next {base : Nat} {whole rest : Block} {s : Stat} {env : Env}
    (h : execute fuel f s m = .done (.next env) m₁) :
    executeBlock (fuel + 1) f base whole (s :: rest) m =
      executeBlock fuel (f.withEnv env) base whole rest m₁ := by
  rw [executeBlock, Run.bind_done h]

/-- A block goes on behind the declaration of one variable. -/
theorem executeBlock_declare {base : Nat} {whole rest : Block} {name : Ident} {e : Exp} {v : Value}
    (hcall : e.isCall = false) (hvarargs : ∀ line, e ≠ .varargs line)
    (h : evaluate fuel f e m = .done v m) :
    executeBlock (fuel + 4) f base whole (.declare [(name, .regular)] [e] :: rest) m =
      executeBlock (fuel + 3) (f.withEnv (f.bind name m.cells.size)) base whole rest
        (m.pushCell v) := by
  exact executeBlock_next (execute_declare (evaluateList_value hcall hvarargs h))

/-- A block ends at a `return`. -/
theorem executeBlock_returned {base : Nat} {whole rest : Block} {s : Stat} {values : Arguments}
    (h : execute fuel f s m = .done (.returned values) m₁) :
    executeBlock (fuel + 1) f base whole (s :: rest) m = .done (.returned values) m₁ := by
  rw [executeBlock, Run.bind_done h]
  rfl

/-- A block ends where a loop is left. -/
theorem executeBlock_left {base : Nat} {whole rest : Block} {s : Stat}
    (h : execute fuel f s m = .done .left m₁) :
    executeBlock (fuel + 1) f base whole (s :: rest) m = .done .left m₁ := by
  rw [executeBlock, Run.bind_done h]
  rfl

/-- A block ends at an error. -/
theorem executeBlock_raised {base : Nat} {whole rest : Block} {s : Stat} {error : Value}
    (h : execute fuel f s m = .raised error m₁) :
    executeBlock (fuel + 1) f base whole (s :: rest) m = .raised error m₁ := by
  rw [executeBlock, Run.bind_raised h]

/-- A loop over what a function gives. -/
theorem execute_genericFor {line : Nat} {names : List Ident} {values : List Exp} {body : Block}
    {next : Value} (h : evaluateList fuel f values m = .done [next] m₁) :
    execute (fuel + 1) f (.genericFor line names values body) m =
      runGeneric fuel f line names body next .nil .nil m₁ := by
  rw [execute]
  exact Run.bind_done h

/-! ## Loops -/

section Loops

variable {line : Nat} {name : Ident} {body : Block} {next state control v : Value}

/-- The frame in which the body of a loop of one variable runs. -/
def Frame.inside (f : Frame) (name : Ident) (cell : Nat) : Frame := f.withEnv (f.bind name cell)

/-- A call of the function of a loop. -/
abbrev callNext (fuel : Nat) (f : Frame) (line : Nat) (next state control : Value) :
    Run Arguments :=
  callAt fuel f line (f.traceAt line) (Frame.mention "for iterator" "for iterator".toList) next
    [state, control]

/-- The function of a loop is called with what it gave last. -/
theorem callNext_function (h : next.isFunction = true) :
    callNext (fuel + 1) f line next state control =
      call fuel (f.traceAt line) next [state, control] :=
  callAt_function h _

/-- A loop ends at `nil`. -/
theorem runGeneric_end (h : callNext fuel f line next state control m = .done [.nil] m₁) :
    runGeneric (fuel + 1) f line [name] body next state control m = .done (.next f.env) m₁ := by
  rw [runGeneric]
  exact Run.bind_done h

/-- **A loop goes round** with the next value. -/
theorem runGeneric_next {env : Env}
    (h : callNext fuel f line next state control m = .done [v] m₁) (hv : v.isNil = false)
    (hbody : executeBlock fuel (f.inside name m₁.cells.size) (f.env.length + 1) body body
      (m₁.pushCell v) = .done (.next env) m₂) :
    runGeneric (fuel + 1) f line [name] body next state control m =
      runGeneric fuel f line [name] body next state v m₂ := by
  rw [runGeneric]
  refine (Run.bind_done h).trans ?_
  rw [List.headD_cons, if_neg (by simp [hv])]
  refine (Run.bind_done (declare_one f name [v] m₁)).trans ?_
  exact Run.bind_done hbody

/-- A loop that is left. -/
theorem runGeneric_left
    (h : callNext fuel f line next state control m = .done [v] m₁) (hv : v.isNil = false)
    (hbody : executeBlock fuel (f.inside name m₁.cells.size) (f.env.length + 1) body body
      (m₁.pushCell v) = .done .left m₂) :
    runGeneric (fuel + 1) f line [name] body next state control m = .done (.next f.env) m₂ := by
  rw [runGeneric]
  refine (Run.bind_done h).trans ?_
  rw [List.headD_cons, if_neg (by simp [hv])]
  refine (Run.bind_done (declare_one f name [v] m₁)).trans ?_
  exact Run.bind_done hbody

end Loops

end Statements

end Stencil.Lua
