import Stencil.Lua.Bytes
import Stencil.Lua.Numeral
set_option autoImplicit false

/-!
# Syntax trees of Lua

Expressions and statements. Those that can fail when they run have the line that an error names.

## Main definitions

* `Stencil.Lua.BinaryOp`, `UnaryOp` — the operators and how tightly they bind.
* `Stencil.Lua.Exp`, `Field`, `Stat` — expressions, items of tables, statements.
* `Stencil.Lua.Block` — a sequence of statements.
-/

namespace Stencil.Lua

/-- Names of variables and fields. -/
abbrev Ident := List Char

/-! ## Operators -/

/-- Operators between two operands. -/
inductive BinaryOp where
  | add | sub | mul | div | floorDiv | mod | pow
  | bitAnd | bitOr | bitXor | shiftLeft | shiftRight
  | concat | eq | ne | lt | le | gt | ge | and | or
  deriving DecidableEq, Repr

/-- Operators before one operand. -/
inductive UnaryOp where
  | negate | not | length | bitNot
  deriving DecidableEq, Repr

/-- **How tightly an operator binds** what stands on its left and on its right. Concatenation and
powers bind the right more loosely, so they group to the right. -/
def BinaryOp.priority : BinaryOp → Nat × Nat
  | or => (1, 1)
  | and => (2, 2)
  | eq | ne | lt | le | gt | ge => (3, 3)
  | bitOr => (4, 4)
  | bitXor => (5, 5)
  | bitAnd => (6, 6)
  | shiftLeft | shiftRight => (7, 7)
  | concat => (9, 8)
  | add | sub => (10, 10)
  | mul | div | floorDiv | mod => (11, 11)
  | pow => (14, 13)

/-- How tightly operators before one operand bind it. -/
def UnaryOp.priority : Nat := 12

/-! ## Trees -/

/-- What is said of a local variable when it is declared. -/
inductive Attribute where
  | regular
  | const
  | close
  deriving DecidableEq, Repr

mutual

/-- **Expressions.** -/
inductive Exp where
  | nil
  | bool (b : Bool)
  | number (n : Number)
  | string (b : Bytes)
  | varargs (line : Nat)
  | function (params : List Ident) (variadic : Bool) (body : List Stat) (endLine : Nat)
  | var (name : Ident)
  | index (line : Nat) (object key : Exp)
  | call (line : Nat) (f : Exp) (args : List Exp)
  | method (line : Nat) (object : Exp) (name : Ident) (args : List Exp)
  | unary (line : Nat) (op : UnaryOp) (e : Exp)
  | binary (line : Nat) (op : BinaryOp) (left right : Exp)
  | table (line : Nat) (fields : List Field)
  /-- An expression in parentheses, which has exactly one value. -/
  | paren (e : Exp)

/-- **Items of a table,** in order or under a key. -/
inductive Field where
  | item (e : Exp)
  | entry (key value : Exp)

/-- **Statements.** -/
inductive Stat where
  | declare (names : List (Ident × Attribute)) (values : List Exp)
  | declareFunction (name : Ident) (f : Exp)
  | assign (line : Nat) (targets values : List Exp)
  | call (e : Exp)
  | scope (body : List Stat)
  | whileLoop (condition : Exp) (body : List Stat)
  | repeatLoop (body : List Stat) (condition : Exp)
  | choose (condition : Exp) (yes no : List Stat)
  | numericFor (line : Nat) (name : Ident) (start limit step : Exp) (body : List Stat)
  | genericFor (line : Nat) (names : List Ident) (values : List Exp) (body : List Stat)
  | yields (values : List Exp)
  | leave
  | jump (label : Ident)
  | label (line : Nat) (name : Ident)

end

/-- **Sequences of statements.** -/
abbrev Block := List Stat

/-- Whether an expression can be assigned to. -/
def Exp.isTarget : Exp → Bool
  | var _ | index _ _ _ => true
  | _ => false

/-- Whether an expression is a call. -/
def Exp.isCall : Exp → Bool
  | call _ _ _ | method _ _ _ _ => true
  | _ => false

/-- The expression for a field of an object. -/
def Exp.field (line : Nat) (object : Exp) (name : Ident) : Exp :=
  .index line object (.string (Bytes.ofChars name))

end Stencil.Lua
