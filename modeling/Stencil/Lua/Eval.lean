import Stencil.Lua.Frame
import Stencil.Lua.Library
set_option autoImplicit false

/-!
# Running programs

Expressions give values, statements change the machine. How deeply the running can nest, and how
often loops can go round, is bounded by a number of steps; with more steps than needed, the
number does not matter.

## Main definitions

* `Stencil.Lua.evaluate`, `evaluateAll` — the value of an expression, and all its values.
* `Stencil.Lua.execute`, `executeBlock` — statements.
* `Stencil.Lua.call` — a call of a function.
-/

namespace Stencil.Lua

/-- How deeply calls can nest. -/
def maxDepth : Nat := 190000

/-- How deeply calls that libraries make can nest. -/
def maxCrossings : Nat := 195

/-- **What the host gives for an include,** as the results of a call. -/
def askHost (asked : Option (Option Resolver)) (args : Arguments) : Run Arguments :=
  match (args.headD .nil).bytes?.bind Bytes.toText? with
  | none =>
    let type := (args.headD .nil).typeName
    Run.raise (.failure (.runtime s!"bad argument #1: error converting Lua {type} to String"))
  | some name => match asked with
    | none => Run.raise (.failure (.runtime "include is only available while rendering"))
    | some resolver => match resolveInclude resolver name with
      | .ok content => return [.text content]
      | .error e => Run.raise (.failure (.host e))

/-- A table with items in order and entries; items go before entries of the same key. -/
def Table.ofFields (items : List Value) (entries : List (Value × Value)) : Table :=
  entries.foldl
    (fun t (k, v) => if (Table.place? items.length k).isSome then t else t.set k v)
    { items := items.toArray }

/-- Whether a value can be given to a variable that is closed at its end. -/
def closable : Value → Bool
  | .nil | .bool false => true
  | _ => false

/-- The place that a target of an assignment means. -/
inductive Target where
  | cell (n : Nat)
  | field (object key : Value) (what : String)

/-- Gives targets their values, from the last to the first. -/
def assignAll (f : Frame) (line : Nat) : List (Target × Value) → Run Unit
  | [] => return ()
  | (target, v) :: rest => do
    assignAll f line rest
    match target with
    | .cell n => Run.setCell n v
    | .field object key what => f.store line what object key v

/-- Targets with their values; those without one get `nil`. -/
def pairUp : List Target → Arguments → List (Target × Value)
  | [], _ => []
  | t :: ts, vs => (t, vs.headD .nil) :: pairUp ts vs.tail

/-- The end of a block seen from outside: its variables are gone. -/
def leaveScope (f : Frame) : Signal → Run Signal
  | .next _ => return .next f.env
  | signal => return signal

/-- The end of a loop that does not go on. -/
def leaveLoop (f : Frame) : Signal → Run Signal
  | .left => return .next f.env
  | signal => return signal

mutual

/-- **The value of an expression.** -/
def evaluate : Nat → Frame → Exp → Run Value
  | 0, _, _ => Run.exhausted
  | fuel + 1, f, e => match e with
    | .nil => return .nil
    | .bool b => return .bool b
    | .number n => return .number n
    | .string b => return .string b
    | .varargs _ => return f.varargs.headD .nil
    | .function params variadic body _ =>
      Run.newClosure ⟨params, variadic, body, f.env, f.level, f.chunk⟩
    | .var name => match Env.find? f.env name with
      | some v => Run.cell v.cell
      | none => do
        let globals ← evaluate fuel f (.var environmentName)
        f.index 0 (.var environmentName) globals (.string (Bytes.ofChars name))
    | .index line object key => do
      let v ← evaluate fuel f object
      let k ← evaluate fuel f key
      f.index line object v k
    | .call _ _ _ | .method _ _ _ _ => do return (← evaluateAll fuel f e).headD .nil
    | .unary line op e => do
      let v ← evaluate fuel f e
      f.settle line e e (op.apply (← Run.get) v)
    | .binary line op left right => do
      let a ← evaluate fuel f left
      match op, a.truth with
      | .and, false | .or, true => return a
      | _, _ => f.settle line left right (op.apply a (← evaluate fuel f right))
    | .table line fields => do
      let (items, entries) ← evaluateFields fuel f line fields
      Run.newTable (Table.ofFields items entries)
    | .paren e => evaluate fuel f e

/-- **All values of an expression.** Calls and the extra arguments have any number. -/
def evaluateAll : Nat → Frame → Exp → Run Arguments
  | 0, _, _ => Run.exhausted
  | fuel + 1, f, e => match e with
    | .varargs _ => return f.varargs
    | .call line g args => do
      let v ← evaluate fuel f g
      let vs ← evaluateList fuel f args
      callAt fuel f line (f.traceAt line) (f.describe g) v vs
    | .method line object name args => do
      let self ← evaluate fuel f object
      let v ← f.index line object self (.string (Bytes.ofChars name))
      let vs ← evaluateList fuel f args
      callAt fuel f line (f.traceAt line) (Frame.mention "method" name) v (self :: vs)
    | e => do return [← evaluate fuel f e]

/-- The values of expressions: one of each, and all of the last. -/
def evaluateList : Nat → Frame → List Exp → Run Arguments
  | 0, _, _ => Run.exhausted
  | _ + 1, _, [] => return []
  | fuel + 1, f, [e] => evaluateAll fuel f e
  | fuel + 1, f, e :: es => do
    let v ← evaluate fuel f e
    return v :: (← evaluateList fuel f es)

/-- The items and the entries of a table. The last item gives all its values. -/
def evaluateFields : Nat → Frame → Nat → List Field →
    Run (List Value × List (Value × Value))
  | 0, _, _, _ => Run.exhausted
  | _ + 1, _, _, [] => return ([], [])
  | fuel + 1, f, _, [.item e] => do return (← evaluateAll fuel f e, [])
  | fuel + 1, f, line, .item e :: fields => do
    let v ← evaluate fuel f e
    let (items, entries) ← evaluateFields fuel f line fields
    return (v :: items, entries)
  | fuel + 1, f, line, .entry key value :: fields => do
    let k ← evaluate fuel f key
    let v ← evaluate fuel f value
    if k.isNil then f.fail line "index is nil"
    else if !k.rawEq k then f.fail line "index is NaN"
    else
      let (items, entries) ← evaluateFields fuel f line fields
      return (items, (k, v) :: entries)

/-- A call at a line, with the places of the calls around it. Only functions can be called. -/
def callAt : Nat → Frame → Nat → Trace → String → Value → Arguments → Run Arguments
  | 0, _, _, _, _, _, _ => Run.exhausted
  | fuel + 1, f, line, trace, what, v, args =>
    if v.isFunction then call fuel trace v args
    else f.fail line (s!"attempt to call a {v.typeName} value" ++ what)

/-- **A call of a function,** with the places of the calls around it. -/
def call : Nat → Trace → Value → Arguments → Run Arguments
  | 0, _, _, _ => Run.exhausted
  | fuel + 1, trace, v, args => match v with
    | .closure n => do
      match (← Run.get).closures[n]? with
      | none => return []
      | some c =>
        if maxDepth ≤ trace.depth then Run.fail trace "stack overflow"
        else if maxCrossings ≤ trace.crossings then Run.fail trace "C stack overflow"
        else
          let extra := if c.variadic then args.drop c.params.length else []
          let f : Frame := ⟨c.env, extra, c.level + 1, c.chunk, trace⟩
          let env ← f.declare c.params args
          match ← executeBlock fuel (f.withEnv env) env.length c.body c.body with
          | .returned values => return values
          | _ => return []
    | .builtin g => g.run (fun t v args => call fuel t v args) trace args
    | .inclusion n => do askHost ((← Run.get).inclusions.getD n none) args
    | .matcher n => runSearch trace n
    | v => Run.fail trace s!"attempt to call a {v.typeName} value"

/-- The place that a target means, or where it is. -/
def evaluateTarget : Nat → Frame → Exp → Run Target
  | 0, _, _ => Run.exhausted
  | fuel + 1, f, e => match e with
    | .var name => match Env.find? f.env name with
      | some v => return .cell v.cell
      | none => do
        let globals ← evaluate fuel f (.var environmentName)
        return .field globals (.string (Bytes.ofChars name))
          (f.describe (.var environmentName))
    | .index _ object key => do
      let v ← evaluate fuel f object
      let k ← evaluate fuel f key
      return .field v k (f.describe object)
    | _ => return .cell 0

/-- The places that targets mean, in order. -/
def evaluateTargets : Nat → Frame → List Exp → Run (List Target)
  | 0, _, _ => Run.exhausted
  | _ + 1, _, [] => return []
  | fuel + 1, f, e :: es => do
    let t ← evaluateTarget fuel f e
    return t :: (← evaluateTargets fuel f es)

/-- **A statement.** -/
def execute : Nat → Frame → Stat → Run Signal
  | 0, _, _ => Run.exhausted
  | fuel + 1, f, s => match s with
    | .declare names values => do
      let vs ← evaluateList fuel f values
      match (names.zip (vs ++ List.replicate names.length .nil)).find? fun ((_, a), v) =>
          a == .close && !closable v with
      | some ((name, _), _) =>
        Run.fail f.trace ("variable '" ++ String.ofList name ++ "' got a non-closable value")
      | none => return .next (← f.declare (names.map Prod.fst) vs)
    | .declareFunction name g => do
      let cell ← Run.newCell .nil
      let env := f.bind name cell
      Run.setCell cell (← evaluate fuel (f.withEnv env) g)
      return .next env
    | .assign line targets values => do
      let ts ← evaluateTargets fuel f targets
      let vs ← evaluateList fuel f values
      assignAll f line (pairUp ts vs)
      return .next f.env
    | .call e => do
      let _ ← evaluateAll fuel f e
      return .next f.env
    | .scope body => do leaveScope f (← executeBlock fuel f f.env.length body body)
    | .whileLoop condition body => runWhile fuel f condition body
    | .repeatLoop body condition => runRepeat fuel f body condition
    | .choose condition yes no => do
      let branch := if (← evaluate fuel f condition).truth then yes else no
      leaveScope f (← executeBlock fuel f f.env.length branch branch)
    | .numericFor line name start limit step body => do
      let a ← evaluate fuel f start
      let n ← evaluate fuel f limit
      let d ← evaluate fuel f step
      match NumericRange.ofValues a n d with
      | .error message => f.fail line message
      | .ok (.integers start step count) => runIntegers fuel f name body start step count
      | .ok (.floats start limit step) => runFloats fuel f name body start limit step
    | .genericFor line names values body => do
      match ← evaluateList fuel f values with
      | next :: state :: control :: _ => runGeneric fuel f line names body next state control
      | [next, state] => runGeneric fuel f line names body next state .nil
      | [next] => runGeneric fuel f line names body next .nil .nil
      | [] => runGeneric fuel f line names body .nil .nil .nil
    | .yields [.call line g args] => do
      let v ← evaluate fuel f g
      let vs ← evaluateList fuel f args
      let trace := match v with
        | .closure _ => f.trace
        | _ => f.traceAt line
      return .returned (← callAt fuel f line trace (f.describe g) v vs)
    | .yields values => do return .returned (← evaluateList fuel f values)
    | .leave => return .left
    | .jump label => return .jumped label
    | .label _ _ => return .next f.env

/-- **The statements of a block from one on.** A label that is looked for is taken up where it
stands, with the variables declared before it. -/
def executeBlock : Nat → Frame → Nat → Block → Block → Run Signal
  | 0, _, _, _, _ => Run.exhausted
  | _ + 1, f, _, _, [] => return .next f.env
  | fuel + 1, f, base, whole, s :: rest => do
    match ← execute fuel f s with
    | .next env => executeBlock fuel (f.withEnv env) base whole rest
    | .jumped name => match labelPlace name 0 whole with
      | some (declared, rest) =>
        let env := f.env.drop (f.env.length - (base + declared))
        executeBlock fuel (f.withEnv env) base whole rest
      | none => return .jumped name
    | signal => return signal

/-- A loop as long as a condition holds. -/
def runWhile : Nat → Frame → Exp → Block → Run Signal
  | 0, _, _, _ => Run.exhausted
  | fuel + 1, f, condition, body => do
    if (← evaluate fuel f condition).truth then
      match ← executeBlock fuel f f.env.length body body with
      | .next _ => runWhile fuel f condition body
      | signal => leaveLoop f signal
    else return .next f.env

/-- A loop until a condition holds, which sees the variables of the body. -/
def runRepeat : Nat → Frame → Block → Exp → Run Signal
  | 0, _, _, _ => Run.exhausted
  | fuel + 1, f, body, condition => do
    match ← executeBlock fuel f f.env.length body body with
    | .next env =>
      if (← evaluate fuel (f.withEnv env) condition).truth then return .next f.env
      else runRepeat fuel f body condition
    | signal => leaveLoop f signal

/-- A loop over a number of integers. -/
def runIntegers : Nat → Frame → Ident → Block → Int64 → Int64 → Nat → Run Signal
  | 0, _, _, _, _, _, _ => Run.exhausted
  | _ + 1, f, _, _, _, _, 0 => return .next f.env
  | fuel + 1, f, name, body, value, step, count + 1 => do
    let env ← f.declare [name] [.int value]
    match ← executeBlock fuel (f.withEnv env) env.length body body with
    | .next _ => runIntegers fuel f name body (value + step) step count
    | signal => leaveLoop f signal

/-- A loop over floats up to a limit. -/
def runFloats : Nat → Frame → Ident → Block → Float → Float → Float → Run Signal
  | 0, _, _, _, _, _, _ => Run.exhausted
  | fuel + 1, f, name, body, value, limit, step => do
    if (if 0.0 < step then value ≤ limit else limit ≤ value) then
      let env ← f.declare [name] [.float value]
      match ← executeBlock fuel (f.withEnv env) env.length body body with
      | .next _ => runFloats fuel f name body (value + step) limit step
      | signal => leaveLoop f signal
    else return .next f.env

/-- A loop over what a function gives, until it gives `nil`. -/
def runGeneric : Nat → Frame → Nat → List Ident → Block → Value → Value → Value → Run Signal
  | 0, _, _, _, _, _, _, _ => Run.exhausted
  | fuel + 1, f, line, names, body, next, state, control => do
    let what := Frame.mention "for iterator" "for iterator".toList
    let values ← callAt fuel f line (f.traceAt line) what next [state, control]
    let first := values.headD .nil
    if first.isNil then return .next f.env
    else
      let env ← f.declare names values
      match ← executeBlock fuel (f.withEnv env) env.length body body with
      | .next _ => runGeneric fuel f line names body next state first
      | signal => leaveLoop f signal

end

end Stencil.Lua
