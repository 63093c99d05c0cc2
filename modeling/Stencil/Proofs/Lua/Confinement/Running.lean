import Stencil.Proofs.Lua.Confinement.Library
set_option autoImplicit false

/-!
# Running programs is confined

A program that runs in a region of a machine depends on that region only: its variables, its
arguments and what it comes by are in the region, and so is all that it makes.

## Main definitions

* `Stencil.Lua.Frame.Within`, `Signal.Within`, `Target.Within` — what a running function has.
* `Stencil.Lua.Running` — expressions, statements, calls and loops with a number of steps are
  confined.

## Main results

* `Stencil.Lua.Running.succ` — one more step.
* `Stencil.Lua.call_confined` — calls of functions.
-/

namespace Stencil.Lua

open Run (Confined)

variable {R : Region}

/-! ## Frames -/

/-- A variable that can be seen. -/
theorem Env.Within.find? {env : Env} (h : Env.Within R env) {name : Ident} {x : Variable}
    (hx : Env.find? env name = some x) : R.cells x.cell :=
  h x (List.mem_of_find?_eq_some hx)

/-- **A running function** whose variables and extra arguments are within a region. -/
structure Frame.Within (R : Region) (f : Frame) : Prop where
  env : Env.Within R f.env
  varargs : Arguments.Within R f.varargs

/-- The frame with other variables. -/
theorem Frame.Within.withEnv {f : Frame} (h : f.Within R) {env : Env} (henv : Env.Within R env) :
    (f.withEnv env).Within R :=
  ⟨henv, h.varargs⟩

/-- The variables of a frame with one more. -/
theorem Frame.Within.bind {f : Frame} (h : f.Within R) (name : Ident) {cell : Nat}
    (hcell : R.cells cell) : Env.Within R (f.bind name cell) :=
  List.forall_mem_cons.mpr ⟨hcell, h.env⟩

/-- A statement that ends with variables or values within a region. -/
def Signal.Within (R : Region) : Signal → Prop
  | .next env => Env.Within R env
  | .returned values => Arguments.Within R values
  | .left => True
  | .jumped _ => True

/-- A target whose object and key are within a region. -/
def Target.Within (R : Region) : Target → Prop
  | .cell _ => True
  | .field object key _ => object.Within R ∧ key.Within R

section Frames

variable {f : Frame} {line : Nat}

/-- An error at a line. -/
theorem Frame.fail_confined {α : Type} {P : α → Prop} {message : String} :
    Confined R P (f.fail line message : Run α) :=
  .fail

/-- The value of an operation. -/
theorem Frame.settle_confined {left right : Exp} {r : Except Complaint Value}
    (hr : Gives (Value.Within R) r) :
    Confined R (Value.Within R) (f.settle line left right r) := by
  cases r with
  | ok v => exact .pure (hr v rfl)
  | error c => exact fail_confined

/-- The value under a key of what an expression gave. -/
theorem Frame.index_confined {object : Exp} {v : Value} (hv : v.Within R) (key : Value) :
    Confined R (Value.Within R) (f.index line object v key) := by
  refine (Confined.index? hv key).bind fun r hr => ?_
  split
  · exact .pure (hr _ rfl)
  · exact fail_confined

/-- A value put under a key of what an expression gave. -/
theorem Frame.store_confined {what : String} {v key new : Value} (hv : v.Within R)
    (hkey : key.Within R) (hnew : new.Within R) :
    Confined R (fun _ => True) (f.store line what v key new) := by
  unfold Frame.store
  split
  · exact fail_confined
  · split
    · exact .setField hv hkey hnew
    · exact fail_confined
  · exact fail_confined

/-- New variables. -/
theorem Frame.declare_confined (hf : f.Within R) (names : List Ident) {values : Arguments}
    (h : Arguments.Within R values) : Confined R (Env.Within R) (f.declare names values) := by
  induction names generalizing f values with
  | nil => exact .pure hf.env
  | cons name names ih =>
    refine (Confined.newCell h.headD).bind fun cell hcell => ?_
    exact ih (hf.withEnv (hf.bind name hcell)) h.tail

/-- Targets with their values. -/
theorem pairUp_within {ts : List Target} {vs : Arguments} (hts : ∀ t ∈ ts, t.Within R)
    (hvs : Arguments.Within R vs) : ∀ p ∈ pairUp ts vs, p.1.Within R ∧ p.2.Within R := by
  induction ts generalizing vs with
  | nil => simp [pairUp]
  | cons t ts ih =>
    rw [List.forall_mem_cons] at hts
    exact List.forall_mem_cons.mpr ⟨⟨hts.1, hvs.headD⟩, ih hts.2 hvs.tail⟩

/-- Targets are given their values. -/
theorem assignAll_confined {ps : List (Target × Value)}
    (h : ∀ p ∈ ps, p.1.Within R ∧ p.2.Within R) :
    Confined R (fun _ => True) (assignAll f line ps) := by
  induction ps with
  | nil => exact .pure trivial
  | cons p ps ih =>
    obtain ⟨target, v⟩ := p
    rw [List.forall_mem_cons] at h
    obtain ⟨⟨htarget, hv⟩, hps⟩ := h
    refine (ih hps).bind fun _ _ => ?_
    cases target with
    | cell n => exact .setCell hv
    | field object key what => exact Frame.store_confined htarget.1 htarget.2 hv

/-- The end of a block seen from outside. -/
theorem leaveScope_confined (hf : f.Within R) {signal : Signal} (h : signal.Within R) :
    Confined R (Signal.Within R) (leaveScope f signal) := by
  cases signal with
  | next env => exact .pure hf.env
  | _ => exact .pure h

/-- The end of a loop that does not go on. -/
theorem leaveLoop_confined (hf : f.Within R) {signal : Signal} (h : signal.Within R) :
    Confined R (Signal.Within R) (leaveLoop f signal) := by
  cases signal with
  | left => exact .pure hf.env
  | _ => exact .pure h

end Frames

/-! ## Operators -/

/-- An operation on two values gives one of them or something new. -/
theorem gives_binaryApply {op : BinaryOp} {a b : Value} (ha : a.Within R) (hb : b.Within R) :
    Gives (Value.Within R) (op.apply a b) := by
  have harithmetic : Gives (Value.Within R) (arithmetic op a b) := by
    unfold arithmetic
    split
    · exact .map fun n => trivial
    · exact .error
  have hbitwise : Gives (Value.Within R) (bitwise op a b) := by
    unfold bitwise
    split
    · split
      · exact .ok trivial
      · exact .error
      · exact .error
    · exact .error
  cases op with
  | add | sub | mul | div | floorDiv | mod | pow => exact harithmetic
  | bitAnd | bitOr | bitXor | shiftLeft | shiftRight => exact hbitwise
  | concat =>
    unfold BinaryOp.apply concatenate
    dsimp only
    split
    · exact .ok trivial
    · exact .error
  | eq | ne => exact .ok trivial
  | lt | le | gt | ge => exact .map fun r => trivial
  | and =>
    refine .ok ?_
    split
    · exact hb
    · exact ha
  | or =>
    refine .ok ?_
    split
    · exact ha
    · exact hb

/-- An operation on one value gives something new. -/
theorem gives_unaryApply {op : UnaryOp} {m : Machine} {a : Value} :
    Gives (Value.Within R) (op.apply m a) := by
  unfold UnaryOp.apply
  cases op with
  | not => exact .ok trivial
  | negate =>
    dsimp only
    split
    · exact .ok trivial
    · exact .ok trivial
    · exact .error
  | bitNot =>
    dsimp only
    split
    · split
      · exact .ok trivial
      · exact .error
    · exact .error
  | length =>
    dsimp only
    split
    · exact .ok trivial
    · exact .ok trivial
    · exact .error

/-- What the host gives is a text. -/
theorem askHost_confined {asked : Option (Option Resolver)} {args : Arguments} :
    Confined R (Arguments.Within R) (askHost asked args) := by
  unfold askHost
  split
  · exact .raise trivial
  · split
    · exact .raise trivial
    · split
      · exact .pure (by simp)
      · exact .raise trivial

/-! ## Running -/

/-- **Expressions, statements, calls and loops** with a number of steps depend on a region only. -/
structure Running (R : Region) (fuel : Nat) : Prop where
  evaluate : ∀ {f : Frame} (e : Exp), f.Within R →
    Confined R (Value.Within R) (evaluate fuel f e)
  evaluateAll : ∀ {f : Frame} (e : Exp), f.Within R →
    Confined R (Arguments.Within R) (evaluateAll fuel f e)
  evaluateList : ∀ {f : Frame} (es : List Exp), f.Within R →
    Confined R (Arguments.Within R) (evaluateList fuel f es)
  evaluateFields : ∀ {f : Frame} (line : Nat) (fields : List Field), f.Within R →
    Confined R
      (fun r => Arguments.Within R r.1 ∧ ∀ e ∈ r.2, e.1.Within R ∧ e.2.Within R)
      (evaluateFields fuel f line fields)
  callAt : ∀ {f : Frame} {line : Nat} {trace : Trace} {what : String} {v : Value}
    {args : Arguments}, v.Within R → Arguments.Within R args →
    Confined R (Arguments.Within R) (callAt fuel f line trace what v args)
  call : ConfinedCaller R (call fuel)
  evaluateTarget : ∀ {f : Frame} (e : Exp), f.Within R →
    Confined R (Target.Within R) (evaluateTarget fuel f e)
  evaluateTargets : ∀ {f : Frame} (es : List Exp), f.Within R →
    Confined R (fun ts => ∀ t ∈ ts, t.Within R) (evaluateTargets fuel f es)
  execute : ∀ {f : Frame} (s : Stat), f.Within R →
    Confined R (Signal.Within R) (execute fuel f s)
  executeBlock : ∀ {f : Frame} (base : Nat) (whole b : Block), f.Within R →
    Confined R (Signal.Within R) (executeBlock fuel f base whole b)
  runWhile : ∀ {f : Frame} (condition : Exp) (body : Block), f.Within R →
    Confined R (Signal.Within R) (runWhile fuel f condition body)
  runRepeat : ∀ {f : Frame} (body : Block) (condition : Exp), f.Within R →
    Confined R (Signal.Within R) (runRepeat fuel f body condition)
  runIntegers : ∀ {f : Frame} (name : Ident) (body : Block) (value step : Int64) (count : Nat),
    f.Within R → Confined R (Signal.Within R) (runIntegers fuel f name body value step count)
  runFloats : ∀ {f : Frame} (name : Ident) (body : Block) (value limit step : Float),
    f.Within R → Confined R (Signal.Within R) (runFloats fuel f name body value limit step)
  runGeneric : ∀ {f : Frame} {next state control : Value} (line : Nat) (names : List Ident)
    (body : Block), f.Within R → next.Within R → state.Within R → control.Within R →
    Confined R (Signal.Within R) (runGeneric fuel f line names body next state control)

namespace Running

variable {fuel : Nat} {f : Frame}

/-- Without steps nothing is done. -/
theorem zero : Running R 0 := by
  constructor
  case call =>
    intro trace v args _ _
    rw [Lua.call]
    exact .exhausted
  all_goals
    intros
    simp only [Lua.evaluate, Lua.evaluateAll, Lua.evaluateList, Lua.evaluateFields, Lua.callAt,
      Lua.evaluateTarget, Lua.evaluateTargets, Lua.execute, Lua.executeBlock, Lua.runWhile,
      Lua.runRepeat, Lua.runIntegers, Lua.runFloats, Lua.runGeneric]
    exact .exhausted

/-! ### Expressions -/

/-- The value of an expression. -/
theorem evaluate_succ (h : Running R fuel) (hf : f.Within R) (e : Exp) :
    Confined R (Value.Within R) (Lua.evaluate (fuel + 1) f e) := by
  have hfirst (e : Exp) : Confined R (Value.Within R)
      (do return (← Lua.evaluateAll fuel f e).headD .nil) :=
    (h.evaluateAll e hf).bind fun vs hvs => .pure hvs.headD
  rw [Lua.evaluate.eq_def]
  cases e with
  | nil | bool | number | string => exact .pure trivial
  | varargs => exact .pure hf.varargs.headD
  | function => exact .newClosure hf.env
  | var name =>
    dsimp only
    split
    · rename_i x hx
      exact .cell (hf.env.find? hx)
    · exact (h.evaluate _ hf).bind fun v hv => Frame.index_confined hv _
  | index line object key =>
    refine (h.evaluate object hf).bind fun v hv => (h.evaluate key hf).bind fun k _ => ?_
    exact Frame.index_confined hv k
  | call | method => exact hfirst _
  | unary line op e =>
    refine (h.evaluate e hf).bind fun v _ => ?_
    exact Confined.get (fun m _ => Frame.settle_confined gives_unaryApply) fun m xs _ => rfl
  | binary line op left right =>
    refine (h.evaluate left hf).bind fun a ha => ?_
    have hboth : Confined R (Value.Within R) (do
        f.settle line left right (op.apply a (← Lua.evaluate fuel f right))) :=
      (h.evaluate right hf).bind fun b hb => Frame.settle_confined (gives_binaryApply ha hb)
    split
    · exact .pure ha
    · exact .pure ha
    · exact hboth
  | table line fields =>
    refine (h.evaluateFields line fields hf).bind fun r hr => ?_
    exact .newTable (.ofFields hr.1 hr.2)
  | paren e => exact h.evaluate e hf

/-- All values of an expression. -/
theorem evaluateAll_succ (h : Running R fuel) (hf : f.Within R) (e : Exp) :
    Confined R (Arguments.Within R) (Lua.evaluateAll (fuel + 1) f e) := by
  have hone (e : Exp) : Confined R (Arguments.Within R)
      (do return [← Lua.evaluate fuel f e]) :=
    (h.evaluate e hf).bind fun v hv => .pure (by simpa using hv)
  rw [Lua.evaluateAll.eq_def]
  cases e with
  | varargs => exact .pure hf.varargs
  | call line g args =>
    refine (h.evaluate g hf).bind fun v hv => ?_
    exact (h.evaluateList args hf).bind fun vs hvs => h.callAt hv hvs
  | method line object name args =>
    refine (h.evaluate object hf).bind fun self hself => ?_
    refine (Frame.index_confined hself _).bind fun v hv => ?_
    refine (h.evaluateList args hf).bind fun vs hvs => ?_
    exact h.callAt hv (Arguments.Within.cons.mpr ⟨hself, hvs⟩)
  | _ => exact hone _

/-- The values of expressions. -/
theorem evaluateList_succ (h : Running R fuel) (hf : f.Within R) (es : List Exp) :
    Confined R (Arguments.Within R) (Lua.evaluateList (fuel + 1) f es) := by
  rw [Lua.evaluateList.eq_def]
  match es with
  | [] => exact .pure Arguments.Within.nil
  | [e] => exact h.evaluateAll e hf
  | e :: e' :: es =>
    refine (h.evaluate e hf).bind fun v hv => ?_
    refine (h.evaluateList (e' :: es) hf).bind fun vs hvs => .pure ?_
    exact Arguments.Within.cons.mpr ⟨hv, hvs⟩

/-- The items and the entries of a table. -/
theorem evaluateFields_succ (h : Running R fuel) (hf : f.Within R) (line : Nat)
    (fields : List Field) :
    Confined R (fun r => Arguments.Within R r.1 ∧ ∀ e ∈ r.2, e.1.Within R ∧ e.2.Within R)
      (Lua.evaluateFields (fuel + 1) f line fields) := by
  rw [Lua.evaluateFields.eq_def]
  match fields with
  | [] => exact .pure ⟨.nil, by simp⟩
  | [.item e] => exact (h.evaluateAll e hf).bind fun vs hvs => .pure ⟨hvs, by simp⟩
  | .item e :: field :: fields =>
    refine (h.evaluate e hf).bind fun v hv => ?_
    refine (h.evaluateFields line (field :: fields) hf).bind fun r hr => .pure ⟨?_, hr.2⟩
    exact Arguments.Within.cons.mpr ⟨hv, hr.1⟩
  | .entry key value :: fields =>
    refine (h.evaluate key hf).bind fun k hk => (h.evaluate value hf).bind fun v hv => ?_
    split
    · exact Frame.fail_confined
    · split
      · exact Frame.fail_confined
      · refine (h.evaluateFields line fields hf).bind fun r hr => .pure ⟨hr.1, ?_⟩
        exact List.forall_mem_cons.mpr ⟨⟨hk, hv⟩, hr.2⟩

/-! ### Calls -/

/-- A call at a line. -/
theorem callAt_succ (h : Running R fuel) {line : Nat} {trace : Trace} {what : String} {v : Value}
    {args : Arguments} (hv : v.Within R) (hargs : Arguments.Within R args) :
    Confined R (Arguments.Within R) (Lua.callAt (fuel + 1) f line trace what v args) := by
  rw [Lua.callAt]
  split
  · exact h.call trace v args hv hargs
  · exact Frame.fail_confined

/-- **A call of a function.** A function that asks the host is in the region, and asks the same. -/
theorem call_succ (h : Running R fuel) : ConfinedCaller R (Lua.call (fuel + 1)) := by
  intro trace v args hv hargs
  rw [Lua.call.eq_def]
  cases v with
  | closure n =>
    refine Confined.get (fun m hm => ?_) fun m xs _ => rfl
    split
    · exact .pure .nil
    · rename_i c hc
      have henv : Env.Within R c.env := hm.closures n c hv hc
      split
      · exact .fail
      · split
        · exact .fail
        · have hextra : Arguments.Within R
              (if c.variadic = true then args.drop c.params.length else []) := by
            split
            · exact hargs.drop _
            · exact .nil
          dsimp only
          generalize (if c.variadic = true then args.drop c.params.length else []) = extra
            at hextra ⊢
          have hf : Frame.Within R ⟨c.env, extra, c.level + 1, c.chunk, trace⟩ := ⟨henv, hextra⟩
          refine (Frame.declare_confined hf c.params hargs).bind fun env henv => ?_
          refine (h.executeBlock _ c.body c.body (hf.withEnv henv)).bind fun signal hsignal => ?_
          split
          · exact .pure hsignal
          · exact .pure .nil
  | builtin g => exact g.run_confined h.call hargs
  | inclusion n =>
    refine Confined.get (fun m _ => askHost_confined) fun m xs hxs => ?_
    rw [Machine.asking_inclusions, hxs n hv]
  | matcher n => exact runSearch_confined n
  | _ => exact .fail

/-! ### Targets -/

/-- The place that a target means. -/
theorem evaluateTarget_succ (h : Running R fuel) (hf : f.Within R) (e : Exp) :
    Confined R (Target.Within R) (Lua.evaluateTarget (fuel + 1) f e) := by
  rw [Lua.evaluateTarget.eq_def]
  cases e with
  | var name =>
    dsimp only
    split
    · exact .pure trivial
    · exact (h.evaluate _ hf).bind fun v hv => .pure ⟨hv, trivial⟩
  | index line object key =>
    refine (h.evaluate object hf).bind fun v hv => ?_
    exact (h.evaluate key hf).bind fun k hk => .pure ⟨hv, hk⟩
  | _ => exact .pure trivial

/-- The places that targets mean. -/
theorem evaluateTargets_succ (h : Running R fuel) (hf : f.Within R) (es : List Exp) :
    Confined R (fun ts => ∀ t ∈ ts, t.Within R) (Lua.evaluateTargets (fuel + 1) f es) := by
  rw [Lua.evaluateTargets.eq_def]
  cases es with
  | nil => exact .pure (by simp)
  | cons e es =>
    refine (h.evaluateTarget e hf).bind fun t ht => ?_
    refine (h.evaluateTargets es hf).bind fun ts hts => .pure ?_
    exact List.forall_mem_cons.mpr ⟨ht, hts⟩

/-! ### Statements -/

/-- The end of a function. -/
theorem yields_succ (h : Running R fuel) (hf : f.Within R) (values : List Exp) :
    Confined R (Signal.Within R) (Lua.execute (fuel + 1) f (.yields values)) := by
  by_cases hcall : ∃ line g args, values = [.call line g args]
  · obtain ⟨line, g, args, rfl⟩ := hcall
    rw [Lua.execute]
    refine (h.evaluate g hf).bind fun v hv => (h.evaluateList args hf).bind fun vs hvs => ?_
    exact (h.callAt hv hvs).bind fun ws hws => .pure hws
  · rw [Lua.execute]
    · exact (h.evaluateList values hf).bind fun vs hvs => .pure hvs
    · exact fun line g args heq => hcall ⟨line, g, args, heq⟩

/-- A statement. -/
theorem execute_succ (h : Running R fuel) (hf : f.Within R) (s : Stat) :
    Confined R (Signal.Within R) (Lua.execute (fuel + 1) f s) := by
  have hblock (b : Block) : Confined R (Signal.Within R) (do
      leaveScope f (← Lua.executeBlock fuel f f.env.length b b)) :=
    (h.executeBlock _ b b hf).bind fun signal hsignal => leaveScope_confined hf hsignal
  cases s with
  | yields values => exact h.yields_succ hf values
  | declare names values =>
    rw [Lua.execute]
    refine (h.evaluateList values hf).bind fun vs hvs => ?_
    split
    · exact .fail
    · exact (Frame.declare_confined hf _ hvs).bind fun env henv => .pure henv
  | declareFunction name g =>
    rw [Lua.execute]
    refine (Confined.newCell .nil).bind fun cell hcell => ?_
    have henv : Env.Within R (f.bind name cell) := hf.bind name hcell
    refine (h.evaluate g (hf.withEnv henv)).bind fun v hv => ?_
    exact (Confined.setCell hv).bind fun _ _ => .pure henv
  | assign line targets values =>
    rw [Lua.execute]
    refine (h.evaluateTargets targets hf).bind fun ts hts => ?_
    refine (h.evaluateList values hf).bind fun vs hvs => ?_
    exact (assignAll_confined (pairUp_within hts hvs)).bind fun _ _ => .pure hf.env
  | call e =>
    rw [Lua.execute]
    exact (h.evaluateAll e hf).bind fun vs _ => .pure hf.env
  | scope body =>
    rw [Lua.execute]
    exact hblock body
  | whileLoop condition body =>
    rw [Lua.execute]
    exact h.runWhile condition body hf
  | repeatLoop body condition =>
    rw [Lua.execute]
    exact h.runRepeat body condition hf
  | choose condition yes no =>
    rw [Lua.execute]
    exact (h.evaluate condition hf).bind fun v _ => hblock _
  | numericFor line name start limit step body =>
    rw [Lua.execute]
    refine (h.evaluate start hf).bind fun a _ => (h.evaluate limit hf).bind fun n _ => ?_
    refine (h.evaluate step hf).bind fun d _ => ?_
    split
    · exact Frame.fail_confined
    · exact h.runIntegers name body _ _ _ hf
    · exact h.runFloats name body _ _ _ hf
  | genericFor line names values body =>
    rw [Lua.execute]
    refine (h.evaluateList values hf).bind fun vs hvs => ?_
    split
    · simp only [Arguments.Within.cons] at hvs
      exact h.runGeneric line names body hf hvs.1 hvs.2.1 hvs.2.2.1
    · simp only [Arguments.Within.cons] at hvs
      exact h.runGeneric line names body hf hvs.1 hvs.2.1 .nil
    · simp only [Arguments.Within.cons] at hvs
      exact h.runGeneric line names body hf hvs.1 .nil .nil
    · exact h.runGeneric line names body hf .nil .nil .nil
  | leave | jump =>
    rw [Lua.execute]
    exact .pure trivial
  | label =>
    rw [Lua.execute]
    exact .pure hf.env

/-- The statements of a block. -/
theorem executeBlock_succ (h : Running R fuel) (hf : f.Within R) (base : Nat)
    (whole b : Block) :
    Confined R (Signal.Within R) (Lua.executeBlock (fuel + 1) f base whole b) := by
  rw [Lua.executeBlock.eq_def]
  cases b with
  | nil => exact .pure hf.env
  | cons s rest =>
    refine (h.execute s hf).bind fun signal hsignal => ?_
    split
    · exact h.executeBlock _ _ _ (hf.withEnv hsignal)
    · split
      · refine h.executeBlock _ _ _ (hf.withEnv fun x hx => hf.env x ?_)
        exact List.mem_of_mem_drop hx
      · exact .pure trivial
    · exact .pure hsignal

/-! ### Loops -/

/-- A loop as long as a condition holds. -/
theorem runWhile_succ (h : Running R fuel) (hf : f.Within R) (condition : Exp) (body : Block) :
    Confined R (Signal.Within R) (Lua.runWhile (fuel + 1) f condition body) := by
  rw [Lua.runWhile]
  refine (h.evaluate condition hf).bind fun v _ => ?_
  split
  · refine (h.executeBlock _ body body hf).bind fun signal hsignal => ?_
    split
    · exact h.runWhile condition body hf
    · exact leaveLoop_confined hf hsignal
  · exact .pure hf.env

/-- A loop until a condition holds. -/
theorem runRepeat_succ (h : Running R fuel) (hf : f.Within R) (body : Block) (condition : Exp) :
    Confined R (Signal.Within R) (Lua.runRepeat (fuel + 1) f body condition) := by
  rw [Lua.runRepeat]
  refine (h.executeBlock _ body body hf).bind fun signal hsignal => ?_
  split
  · refine (h.evaluate condition (hf.withEnv hsignal)).bind fun v _ => ?_
    split
    · exact .pure hf.env
    · exact h.runRepeat body condition hf
  · exact leaveLoop_confined hf hsignal

/-- A loop over a number of integers. -/
theorem runIntegers_succ (h : Running R fuel) (hf : f.Within R) (name : Ident) (body : Block)
    (value step : Int64) (count : Nat) :
    Confined R (Signal.Within R) (Lua.runIntegers (fuel + 1) f name body value step count) := by
  rw [Lua.runIntegers.eq_def]
  cases count with
  | zero => exact .pure hf.env
  | succ count =>
    refine (Frame.declare_confined hf [name] (by simp)).bind fun env henv => ?_
    refine (h.executeBlock _ body body (hf.withEnv henv)).bind fun signal hsignal => ?_
    split
    · exact h.runIntegers name body _ _ _ hf
    · exact leaveLoop_confined hf hsignal

/-- A loop over floats up to a limit. -/
theorem runFloats_succ (h : Running R fuel) (hf : f.Within R) (name : Ident) (body : Block)
    (value limit step : Float) :
    Confined R (Signal.Within R) (Lua.runFloats (fuel + 1) f name body value limit step) := by
  rw [Lua.runFloats]
  by_cases hgo : if 0.0 < step then value ≤ limit else limit ≤ value
  · rw [if_pos hgo]
    refine (Frame.declare_confined hf [name] (by simp)).bind fun env henv => ?_
    refine (h.executeBlock _ body body (hf.withEnv henv)).bind fun signal hsignal => ?_
    split
    · exact h.runFloats name body _ _ _ hf
    · exact leaveLoop_confined hf hsignal
  · rw [if_neg hgo]
    exact .pure hf.env

/-- A loop over what a function gives. -/
theorem runGeneric_succ (h : Running R fuel) (hf : f.Within R) (line : Nat) (names : List Ident)
    (body : Block) {next state control : Value} (hnext : next.Within R) (hstate : state.Within R)
    (hcontrol : control.Within R) :
    Confined R (Signal.Within R)
      (Lua.runGeneric (fuel + 1) f line names body next state control) := by
  rw [Lua.runGeneric]
  have hargs : Arguments.Within R [state, control] := by simp [hstate, hcontrol]
  refine (h.callAt hnext hargs).bind fun values hvalues => ?_
  dsimp only
  split
  · exact .pure hf.env
  · refine (Frame.declare_confined hf names hvalues).bind fun env henv => ?_
    refine (h.executeBlock _ body body (hf.withEnv henv)).bind fun signal hsignal => ?_
    split
    · exact h.runGeneric line names body hf hnext hstate hvalues.headD
    · exact leaveLoop_confined hf hsignal

/-- **One more step.** -/
theorem succ (h : Running R fuel) : Running R (fuel + 1) where
  evaluate e hf := h.evaluate_succ hf e
  evaluateAll e hf := h.evaluateAll_succ hf e
  evaluateList es hf := h.evaluateList_succ hf es
  evaluateFields line fields hf := h.evaluateFields_succ hf line fields
  callAt hv hargs := h.callAt_succ hv hargs
  call := h.call_succ
  evaluateTarget e hf := h.evaluateTarget_succ hf e
  evaluateTargets es hf := h.evaluateTargets_succ hf es
  execute s hf := h.execute_succ hf s
  executeBlock base whole b hf := h.executeBlock_succ hf base whole b
  runWhile condition body hf := h.runWhile_succ hf condition body
  runRepeat body condition hf := h.runRepeat_succ hf body condition
  runIntegers name body value step count hf := h.runIntegers_succ hf name body value step count
  runFloats name body value limit step hf := h.runFloats_succ hf name body value limit step
  runGeneric line names body hf hnext hstate hcontrol :=
    h.runGeneric_succ hf line names body hnext hstate hcontrol

/-- Any number of steps. -/
theorem all (fuel : Nat) : Running R fuel := by
  induction fuel with
  | zero => exact zero
  | succ fuel ih => exact ih.succ

end Running

/-- **A call of a function** depends on a region that the function and its arguments are in.

**Proof sketch.** Induction on the number of steps, for expressions, statements and calls
together. Nothing but a call of a function that asks the host looks at whom it asks; such a
function is in the region, since it has come out of a variable, a table or an argument that is. -/
theorem call_confined (fuel : Nat) : ConfinedCaller R (call fuel) := (Running.all fuel).call

end Stencil.Lua
