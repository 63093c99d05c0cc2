import Stencil.Lua.Token
import Stencil.Lua.Tree
set_option autoImplicit false

/-!
# Reading programs

The grammar of Lua 5.4 by recursive descent: one token at a time decides what comes next, and
operators are grouped by how tightly they bind. An error is the line of the token at which
reading stops.

## Main definitions

* `Stencil.Lua.Reader` — actions on the tokens that are left.
* `Stencil.Lua.Reader.expression` — an expression whose operators bind tighter than a limit.
* `Stencil.Lua.Reader.block` — the statements up to the end of a block.
* `Stencil.Lua.Block.ofTokens` — the statements of a whole program.
-/

namespace Stencil.Lua

/-! ## Reading tokens -/

/-- The tokens that are left, and the line of the token before them. -/
structure Place where
  previous : Nat
  tokens : List Located

/-- **Actions on the tokens that are left.** An error is a line. -/
abbrev Reader (α : Type) := StateT Place (Except Nat) α

namespace Reader

variable {α : Type}

/-- The token at a place. -/
def tokenAt (p : Place) : Token := (p.tokens.head?.map Located.token).getD .finish

/-- The line of the token at a place. -/
def lineAt (p : Place) : Nat := (p.tokens.head?.map Located.line).getD p.previous

/-- The present token. -/
def current : Reader Token := fun p => .ok (tokenAt p, p)

/-- The line of the present token. -/
def currentLine : Reader Nat := fun p => .ok (lineAt p, p)

/-- The present token is at hand, and reading does not go on. -/
theorem current_bind {β : Type} (f : Token → Reader β) (p : Place) :
    (current >>= f) p = f (tokenAt p) p := rfl

/-- Nor does it go on for the line of the present token. -/
theorem currentLine_bind {β : Type} (f : Nat → Reader β) (p : Place) :
    (currentLine >>= f) p = f (lineAt p) p := rfl

/-- The line of the token before the present one. -/
def previousLine : Reader Nat := fun p => .ok (p.previous, p)

/-- Stops reading at the present token. -/
def stop : Reader α := fun p => .error (lineAt p)

/-- The tokens of a program with its first token at hand; a fault there is an error. -/
def arrive (previous : Nat) (tokens : List Located) : Except Nat Place :=
  match tokens with
  | ⟨.fault, line⟩ :: _ => .error line
  | _ => .ok ⟨previous, tokens⟩

/-- Goes on to the next token. -/
def advance : Reader Unit := fun p =>
  (arrive (lineAt p) p.tokens.tail).map fun q => ((), q)

/-- Whether the present token is a sign; if so, reading goes on behind it. -/
def accept (s : Symbol) : Reader Bool := do
  match ← current with
  | .symbol t => if t = s then do advance; return true else return false
  | _ => return false

/-- Whether the present token is a keyword; if so, reading goes on behind it. -/
def acceptWord (k : Keyword) : Reader Bool := do
  match ← current with
  | .keyword j => if j = k then do advance; return true else return false
  | _ => return false

/-- Goes on behind a sign that must be there. -/
def expect (s : Symbol) : Reader Unit := do
  if ← accept s then return () else stop

/-- Goes on behind a keyword that must be there. -/
def expectWord (k : Keyword) : Reader Unit := do
  if ← acceptWord k then return () else stop

/-- A name that must be there. -/
def name : Reader Ident := do
  match ← current with
  | .name s => do advance; return s
  | _ => stop

/-! ## Names -/

/-- Names parted by commas, at most `fuel` of them. -/
def names : Nat → Reader (List Ident)
  | 0 => stop
  | fuel + 1 => do
    let n ← name
    if ← accept .comma then return n :: (← names fuel) else return [n]

/-- The attribute behind a name. -/
def localAttribute : Reader Attribute := do
  if ← accept .less then
    let word ← name
    expect .greater
    if word = "const".toList then return .const
    else if word = "close".toList then return .close
    else stop
  else return .regular

/-- Names with attributes, parted by commas. At most one of them is closed. -/
def declared : Nat → Bool → Reader (List (Ident × Attribute))
  | 0, _ => stop
  | fuel + 1, closed => do
    let n ← name
    let a ← localAttribute
    if a = .close ∧ closed then stop
    else if ← accept .comma then
      return (n, a) :: (← declared fuel (closed || a == .close))
    else return [(n, a)]

/-- Parameters up to the closing parenthesis, and whether there are any number more. -/
def parameters : Nat → Reader (List Ident × Bool)
  | 0 => stop
  | fuel + 1 => do
    if ← accept .ellipsis then
      expect .rightParen
      return ([], true)
    else
      let n ← name
      if ← accept .comma then
        let (ns, variadic) ← parameters fuel
        return (n :: ns, variadic)
      else
        expect .rightParen
        return ([n], false)

/-- The parameters behind an opening parenthesis. -/
def parameterList (fuel : Nat) : Reader (List Ident × Bool) := do
  expect .leftParen
  if ← accept .rightParen then return ([], false) else parameters fuel

/-- The fields behind the name of a function, at most `fuel` of them, and whether the last is a
method. -/
def functionName : Nat → Exp → Reader (Exp × Bool)
  | 0, _ => stop
  | fuel + 1, e => do
    let line ← currentLine
    if ← accept .dot then
      let n ← name
      functionName fuel (.field line e n)
    else if ← accept .colon then
      let n ← name
      return (.field line e n, true)
    else return (e, false)

/-! ## Operators -/

/-- The operator that a token is between two operands. -/
def binaryOp? : Token → Option BinaryOp
  | .symbol .plus => some .add
  | .symbol .minus => some .sub
  | .symbol .star => some .mul
  | .symbol .slash => some .div
  | .symbol .doubleSlash => some .floorDiv
  | .symbol .percent => some .mod
  | .symbol .caret => some .pow
  | .symbol .ampersand => some .bitAnd
  | .symbol .bar => some .bitOr
  | .symbol .tilde => some .bitXor
  | .symbol .shiftLeft => some .shiftLeft
  | .symbol .shiftRight => some .shiftRight
  | .symbol .concat => some .concat
  | .symbol .equal => some .eq
  | .symbol .notEqual => some .ne
  | .symbol .less => some .lt
  | .symbol .lessEqual => some .le
  | .symbol .greater => some .gt
  | .symbol .greaterEqual => some .ge
  | .keyword .and => some .and
  | .keyword .or => some .or
  | _ => none

/-- The operator that a token is before an operand. -/
def unaryOp? : Token → Option UnaryOp
  | .symbol .minus => some .negate
  | .symbol .hash => some .length
  | .symbol .tilde => some .bitNot
  | .keyword .not => some .not
  | _ => none

/-- Whether a token ends a block. -/
def endsBlock : Token → Bool
  | .finish | .keyword .«end» | .keyword .«else» | .keyword .elseif | .keyword .«until» => true
  | _ => false

/-! ## The grammar -/

mutual

/-- **An expression** whose operators bind what is on their left tighter than a limit. -/
def expression : Nat → Nat → Reader Exp
  | 0, _ => stop
  | fuel + 1, limit => do
    match unaryOp? (← current) with
    | some op =>
      let line ← currentLine
      advance
      let e ← expression fuel UnaryOp.priority
      operators fuel limit (.unary line op e)
    | none => operators fuel limit (← simple fuel)

/-- The operators behind an expression, with their right operands. -/
def operators : Nat → Nat → Exp → Reader Exp
  | 0, _, _ => stop
  | fuel + 1, limit, left => do
    match binaryOp? (← current) with
    | some op =>
      if limit < op.priority.1 then
        let line ← currentLine
        advance
        let right ← expression fuel op.priority.2
        operators fuel limit (.binary line op left right)
      else return left
    | none => return left

/-- An expression without operators. -/
def simple : Nat → Reader Exp
  | 0 => stop
  | fuel + 1 => do
    match ← current with
    | .number n => do advance; return .number n
    | .string b => do advance; return .string b
    | .keyword .nil => do advance; return .nil
    | .keyword .true => do advance; return .bool true
    | .keyword .false => do advance; return .bool false
    | .symbol .ellipsis => do
      let line ← currentLine
      advance
      return .varargs line
    | .symbol .leftBrace => tableItems fuel
    | .keyword .function => do advance; functionBody fuel false
    | _ => suffixed fuel

/-- A name or an expression in parentheses, with the accesses and calls behind it. -/
def suffixed : Nat → Reader Exp
  | 0 => stop
  | fuel + 1 => do
    match ← current with
    | .name s => do
      advance
      suffixes fuel (.var s)
    | .symbol .leftParen => do
      advance
      let e ← expression fuel 0
      expect .rightParen
      suffixes fuel (.paren e)
    | _ => stop

/-- The accesses and calls behind an expression. -/
def suffixes : Nat → Exp → Reader Exp
  | 0, _ => stop
  | fuel + 1, e => do
    match ← current with
    | .symbol .dot => do
      advance
      let n ← name
      let line ← previousLine
      suffixes fuel (.field line e n)
    | .symbol .leftBracket => do
      advance
      let key ← expression fuel 0
      expect .rightBracket
      let line ← previousLine
      suffixes fuel (.index line e key)
    | .symbol .colon => do
      advance
      let n ← name
      let line ← currentLine
      let args ← arguments fuel
      suffixes fuel (.method line e n args)
    | .symbol .leftParen | .symbol .leftBrace | .string _ => do
      let line ← currentLine
      let args ← arguments fuel
      suffixes fuel (.call line e args)
    | _ => return e

/-- The arguments of a call: a list in parentheses, a table, or a string. -/
def arguments : Nat → Reader (List Exp)
  | 0 => stop
  | fuel + 1 => do
    match ← current with
    | .string b => do advance; return [.string b]
    | .symbol .leftBrace => return [← tableItems fuel]
    | .symbol .leftParen => do
      advance
      if ← accept .rightParen then return []
      else
        let es ← expressions fuel
        expect .rightParen
        return es
    | _ => stop

/-- Expressions parted by commas; at least one. -/
def expressions : Nat → Reader (List Exp)
  | 0 => stop
  | fuel + 1 => do
    let e ← expression fuel 0
    if ← accept .comma then return e :: (← expressions fuel) else return [e]

/-- A table, from its opening brace. -/
def tableItems : Nat → Reader Exp
  | 0 => stop
  | fuel + 1 => do
    let line ← currentLine
    expect .leftBrace
    return .table line (← fields fuel)

/-- The items of a table up to its closing brace. -/
def fields : Nat → Reader (List Field)
  | 0 => stop
  | fuel + 1 => do
    if ← accept .rightBrace then return []
    else
      let f ← field fuel
      if ← accept .comma then return f :: (← fields fuel)
      else if ← accept .semicolon then return f :: (← fields fuel)
      else
        expect .rightBrace
        return [f]

/-- One item of a table. -/
def field : Nat → Reader Field
  | 0 => stop
  | fuel + 1 => fun p =>
    match p.tokens with
    | ⟨.name s, _⟩ :: ⟨.symbol .assign, _⟩ :: _ =>
      (do
        advance
        advance
        return .entry (.string (Bytes.ofChars s)) (← expression fuel 0) : Reader Field) p
    | ⟨.symbol .leftBracket, _⟩ :: _ =>
      (do
        advance
        let key ← expression fuel 0
        expect .rightBracket
        expect .assign
        return .entry key (← expression fuel 0) : Reader Field) p
    | _ => (do return .item (← expression fuel 0) : Reader Field) p

/-- A function from its parameters to its end. A method has itself for a first parameter. -/
def functionBody : Nat → Bool → Reader Exp
  | 0, _ => stop
  | fuel + 1, isMethod => do
    let (params, variadic) ← parameterList fuel
    let body ← block fuel
    expectWord .«end»
    let endLine ← currentLine
    return .function (if isMethod then "self".toList :: params else params) variadic body endLine

/-- **The statements up to the end of a block.** A `return` is the last of them. -/
def block : Nat → Reader Block
  | 0 => stop
  | fuel + 1 => do
    let t ← current
    if endsBlock t then return []
    else if ← acceptWord .«return» then return [← returned fuel]
    else match ← statement fuel with
      | some s => return s :: (← block fuel)
      | none => block fuel

/-- What follows `return`. -/
def returned : Nat → Reader Stat
  | 0 => stop
  | fuel + 1 => do
    match ← current with
    | .symbol .semicolon => do advance; return .yields []
    | t =>
      if endsBlock t then return .yields []
      else
        let es ← expressions fuel
        let _ ← accept .semicolon
        return .yields es

/-- One statement; a semicolon is none. -/
def statement : Nat → Reader (Option Stat)
  | 0 => stop
  | fuel + 1 => do
    let line ← currentLine
    match ← current with
    | .symbol .semicolon => do advance; return none
    | .symbol .doubleColon => do
      advance
      let n ← name
      expect .doubleColon
      return some (.label line n)
    | .keyword .«break» => do advance; return some .leave
    | .keyword .goto => do
      advance
      return some (.jump (← name))
    | .keyword .«do» => do
      advance
      let body ← block fuel
      expectWord .«end»
      return some (.scope body)
    | .keyword .«while» => do
      advance
      let condition ← expression fuel 0
      expectWord .«do»
      let body ← block fuel
      expectWord .«end»
      return some (.whileLoop condition body)
    | .keyword .«repeat» => do
      advance
      let body ← block fuel
      expectWord .«until»
      return some (.repeatLoop body (← expression fuel 0))
    | .keyword .«if» => do
      advance
      return some (← branches fuel)
    | .keyword .«for» => do
      advance
      return some (← loop fuel line)
    | .keyword .function => do
      advance
      let n ← name
      let (target, isMethod) ← functionName fuel (.var n)
      let f ← functionBody fuel isMethod
      return some (.assign line [target] [f])
    | .keyword .«local» => do
      advance
      if ← acceptWord .function then
        let n ← name
        return some (.declareFunction n (← functionBody fuel false))
      else
        let ns ← declared fuel false
        if ← accept .assign then return some (.declare ns (← expressions fuel))
        else return some (.declare ns [])
    | _ => do
      let e ← suffixed fuel
      match ← current with
      | .symbol .assign | .symbol .comma => return some (← assignment fuel [] e)
      | _ => if e.isCall then return some (.call e) else stop

/-- The rest of an assignment, behind targets already read and one more. -/
def assignment : Nat → List Exp → Exp → Reader Stat
  | 0, _, _ => stop
  | fuel + 1, before, e => do
    if e.isTarget then
      if ← accept .comma then assignment fuel (before ++ [e]) (← suffixed fuel)
      else
        expect .assign
        let values ← expressions fuel
        let line ← previousLine
        return .assign line (before ++ [e]) values
    else stop

/-- What follows `if` or `elseif`. -/
def branches : Nat → Reader Stat
  | 0 => stop
  | fuel + 1 => do
    let condition ← expression fuel 0
    expectWord .«then»
    let yes ← block fuel
    if ← acceptWord .elseif then return .choose condition yes [← branches fuel]
    else if ← acceptWord .«else» then
      let no ← block fuel
      expectWord .«end»
      return .choose condition yes no
    else
      expectWord .«end»
      return .choose condition yes []

/-- What follows `for`. -/
def loop : Nat → Nat → Reader Stat
  | 0, _ => stop
  | fuel + 1, line => do
    let n ← name
    match ← current with
    | .symbol .assign => do
      advance
      let start ← expression fuel 0
      expect .comma
      let limit ← expression fuel 0
      let step ← if ← accept .comma then expression fuel 0 else pure (.number (.int 1))
      expectWord .«do»
      let body ← block fuel
      expectWord .«end»
      return .numericFor line n start limit step body
    | .symbol .comma | .keyword .«in» => do
      let more ← if ← accept .comma then names fuel else pure []
      expectWord .«in»
      let values ← expressions fuel
      expectWord .«do»
      let body ← block fuel
      expectWord .«end»
      return .genericFor line (n :: more) values body
    | _ => stop

end

/-- How deeply the grammar can nest in a number of tokens. -/
def depth (tokens : List Located) : Nat := 16 * (tokens.length + 1)

/-- The statements of a whole program, and the line of its end. -/
def program (fuel : Nat) : Reader (Block × Nat) := do
  let b ← block fuel
  match ← current with
  | .finish => return (b, ← currentLine)
  | _ => stop

end Reader

/-- **The statements of a whole program** and the line of its end; or the line at which reading
stops. -/
def Block.ofTokens (tokens : List Located) : Except Nat (Block × Nat) := do
  let place ← Reader.arrive 1 tokens
  (Reader.program (Reader.depth tokens)).run' place

end Stencil.Lua
