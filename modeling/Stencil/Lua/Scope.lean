import Stencil.Lua.Tree
set_option autoImplicit false

/-!
# What names mean in a program

Rules of the language that the grammar does not state: constants are not assigned to, a `break`
is inside a loop, a `goto` has a label that it can reach, and the extra arguments are used only
where there can be any.

## Main definitions

* `Stencil.Lua.Scope` — what is known at a place of a program.
* `Stencil.Lua.Scope.checkBlock` — whether a block keeps the rules.
* `Stencil.Lua.Block.check` — whether a program does; otherwise the line of the error.
-/

namespace Stencil.Lua

/-- **What is known at a place of a program:** the local variables, innermost first, and which of
them are constants; whether there are extra arguments; whether a loop is around it; the labels
that a `goto` can reach, and those that are taken; and the line at which the function has been
read. -/
structure Scope where
  locals : List (Ident × Bool)
  variadic : Bool
  inLoop : Bool
  labels : List Ident
  taken : List Ident
  endLine : Nat

namespace Scope

/-! ## Names -/

/-- Whether a name is that of a constant. -/
def isConstant (s : Scope) (name : Ident) : Bool := (s.locals.lookup name).getD false

/-- The scope with more variables. -/
def declare (s : Scope) (names : List (Ident × Bool)) : Scope :=
  { s with locals := names.reverse ++ s.locals }

/-- The scope with more variables that are no constants. -/
def declareNames (s : Scope) (names : List Ident) : Scope := s.declare (names.map (·, false))

/-- The scope inside a loop. -/
def looped (s : Scope) : Scope := { s with inLoop := true }

/-- The scope inside a function. -/
def enter (s : Scope) (params : List Ident) (variadic : Bool) (endLine : Nat) : Scope :=
  { s.declareNames params with variadic, inLoop := false, labels := [], taken := [], endLine }

/-! ## Labels -/

/-- Whether nothing but labels is left of a block. -/
def onlyLabels : Block → Bool
  | [] => true
  | .label _ _ :: rest => onlyLabels rest
  | _ :: _ => false

/-- The labels ahead that can be reached: those before the next declaration, and those at the end
of the block. -/
def labelsAhead (hidden : Bool) : Block → List Ident
  | [] => []
  | .label _ name :: rest =>
    if hidden && !onlyLabels rest then labelsAhead hidden rest
    else name :: labelsAhead hidden rest
  | .declare _ _ :: rest | .declareFunction _ _ :: rest => labelsAhead true rest
  | _ :: rest => labelsAhead hidden rest

/-! ## The rules -/

/-- Whether an assignment to an expression is allowed. -/
def checkTarget (s : Scope) (line : Nat) : Exp → Except Nat Unit
  | .var name => if s.isConstant name then .error line else .ok ()
  | _ => .ok ()

mutual

/-- Whether an expression keeps the rules. -/
def checkExp (s : Scope) : Exp → Except Nat Unit
  | .varargs line => if s.variadic then .ok () else .error line
  | .function params variadic body endLine => checkBlock (s.enter params variadic endLine) [] body
  | .index _ object key => do checkExp s object; checkExp s key
  | .call _ f args => do checkExp s f; checkExps s args
  | .method _ object _ args => do checkExp s object; checkExps s args
  | .unary _ _ e => checkExp s e
  | .binary _ _ left right => do checkExp s left; checkExp s right
  | .table _ fields => checkFields s fields
  | .paren e => checkExp s e
  | .nil | .bool _ | .number _ | .string _ | .var _ => .ok ()

/-- Whether a list of expressions does. -/
def checkExps (s : Scope) : List Exp → Except Nat Unit
  | [] => .ok ()
  | e :: es => do checkExp s e; checkExps s es

/-- Whether an item of a table does. -/
def checkField (s : Scope) : Field → Except Nat Unit
  | .item e => checkExp s e
  | .entry key value => do checkExp s key; checkExp s value

/-- Whether the items of a table do. -/
def checkFields (s : Scope) : List Field → Except Nat Unit
  | [] => .ok ()
  | f :: fs => do checkField s f; checkFields s fs

/-- Whether a statement does. -/
def checkStat (s : Scope) : Stat → Except Nat Unit
  | .declare _ values => checkExps s values
  | .declareFunction name f => checkExp (s.declareNames [name]) f
  | .assign line targets values => do
    targets.forM (checkTarget s line)
    checkExps s targets
    checkExps s values
  | .call e => checkExp s e
  | .scope body => checkBlock s [] body
  | .whileLoop condition body => do checkExp s condition; checkBlock s.looped [] body
  | .repeatLoop body condition => do checkBlock s.looped [] body; checkExp s condition
  | .choose condition yes no => do
    checkExp s condition
    checkBlock s [] yes
    checkBlock s [] no
  | .numericFor _ name start limit step body => do
    checkExp s start
    checkExp s limit
    checkExp s step
    checkBlock (s.declareNames [name]).looped [] body
  | .genericFor _ names values body => do
    checkExps s values
    checkBlock (s.declareNames names).looped [] body
  | .yields values => checkExps s values
  | .leave => if s.inLoop then .ok () else .error s.endLine
  | .jump name => if name ∈ s.labels then .ok () else .error s.endLine
  | .label line name => if name ∈ s.taken then .error line else .ok ()

/-- **Whether a block keeps the rules,** behind the labels that it has declared so far. -/
def checkBlock (s : Scope) (before : List Ident) : List Stat → Except Nat Unit
  | [] => .ok ()
  | stat :: rest => do
    checkStat { s with
      labels := before ++ labelsAhead false rest ++ s.labels
      taken := before ++ s.taken } stat
    match stat with
    | .label _ name => checkBlock s (name :: before) rest
    | .declare names _ =>
      checkBlock (s.declare (names.map fun (n, a) => (n, a != .regular))) before rest
    | .declareFunction name _ => checkBlock (s.declareNames [name]) before rest
    | _ => checkBlock s before rest

end

end Scope

/-- **Whether a program keeps the rules;** otherwise the line of the error. -/
def Block.check (b : Block) (endLine : Nat) : Except Nat Unit :=
  Scope.checkBlock ⟨[], true, false, [], [], endLine⟩ [] b

end Stencil.Lua
