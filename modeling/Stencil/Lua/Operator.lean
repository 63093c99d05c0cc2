import Stencil.Lua.Machine
set_option autoImplicit false

/-!
# Operators

What operators make of values. Integers wrap around; an operation on an integer and a float is
one on floats; strings that spell numbers count as numbers.

## Main definitions

* `Stencil.Lua.Complaint` — why an operation is impossible.
* `Stencil.Lua.BinaryOp.apply`, `UnaryOp.apply` — the operations on values.
-/

namespace Stencil.Lua

open Stencil.Number

/-! ## Complaints -/

/-- An operand. -/
inductive Side where
  | left
  | right
  deriving DecidableEq, Repr

/-- **Why an operation is impossible.** -/
inductive Complaint where
  /-- An operand has a type that the operation is not for. -/
  | wrongType (action : String) (side : Side) (type : String)
  /-- An operand is a float that is no integer. -/
  | noInteger (side : Side)
  /-- Two values have no order. -/
  | noOrder (left right : String)
  /-- An integer is divided by zero. -/
  | zeroDivisor (operation : String)
  deriving DecidableEq, Repr

/-- The text of a complaint, from what is known of the operands. -/
def Complaint.message (describe : Side → String) : Complaint → String
  | wrongType action side type => s!"attempt to {action} a {type} value" ++ describe side
  | noInteger side => s!"number" ++ describe side ++ " has no integer representation"
  | noOrder left right =>
    if left = right then s!"attempt to compare two {left} values"
    else s!"attempt to compare {left} with {right}"
  | zeroDivisor operation => s!"attempt to perform '{operation}'"

/-- The complaint about the first of two operands that fails a test. -/
def complainOf (action : String) (suits : Value → Bool) (a b : Value) : Complaint :=
  if suits a then .wrongType action .right b.typeName else .wrongType action .left a.typeName

/-! ## Arithmetic -/

namespace Number

/-- The floor of a quotient of floats. -/
def floorDivFloat (x y : Float) : Float := (x / y).floor

/-- The remainder of a floored division of floats. It has the sign of the divisor. -/
def modFloat (x y : Float) : Float :=
  let r := remainder x y
  if (0.0 < r && y < 0.0) || (r < 0.0 && 0.0 < y) then r + y else r

/-- A power of floats. -/
def powFloat (x y : Float) : Float := if y == 2.0 then x * x else x.pow y

/-- **An arithmetic operation** on numbers. -/
def arithmetic (op : BinaryOp) (m n : Number) : Except Complaint Number :=
  match op, m, n with
  | .add, int a, int b => .ok (int (a + b))
  | .sub, int a, int b => .ok (int (a - b))
  | .mul, int a, int b => .ok (int (a * b))
  | .floorDiv, int a, int b =>
    if b = 0 then .error (.zeroDivisor "n//0")
    else .ok (int (Int64.ofInt (a.toInt.fdiv b.toInt)))
  | .mod, int a, int b =>
    if b = 0 then .error (.zeroDivisor "n%%0")
    else .ok (int (Int64.ofInt (a.toInt.fmod b.toInt)))
  | .add, _, _ => .ok (float (m.toFloat + n.toFloat))
  | .sub, _, _ => .ok (float (m.toFloat - n.toFloat))
  | .mul, _, _ => .ok (float (m.toFloat * n.toFloat))
  | .floorDiv, _, _ => .ok (float (floorDivFloat m.toFloat n.toFloat))
  | .mod, _, _ => .ok (float (modFloat m.toFloat n.toFloat))
  | .pow, _, _ => .ok (float (powFloat m.toFloat n.toFloat))
  | _, _, _ => .ok (float (m.toFloat / n.toFloat))

/-- The bits of an integer moved to the left; to the right for a negative distance. -/
def shiftLeft (n distance : Int64) : Int64 :=
  let d := distance.toInt
  let bits := n.toUInt64
  if 64 ≤ d ∨ d ≤ -64 then 0
  else if 0 ≤ d then (bits <<< (UInt64.ofNat d.toNat)).toInt64
  else (bits >>> (UInt64.ofNat (-d).toNat)).toInt64

/-- An operation on the bits of integers. -/
def bitwise (op : BinaryOp) (m n : Int64) : Int64 :=
  match op with
  | .bitAnd => m &&& n
  | .bitOr => m ||| n
  | .bitXor => m ^^^ n
  | .shiftLeft => shiftLeft m n
  | _ => shiftLeft m (-n)

end Number

/-- Whether a value is a number. -/
def Value.isNumber : Value → Bool
  | .number _ => true
  | _ => false

/-- An arithmetic operation on values. -/
def arithmetic (op : BinaryOp) (a b : Value) : Except Complaint Value :=
  match a.number?, b.number? with
  | some m, some n => (Number.arithmetic op m n).map .number
  | _, _ => .error (complainOf "perform arithmetic on" (fun v => v.number?.isSome) a b)

/-- An operation on the bits of values. -/
def bitwise (op : BinaryOp) (a b : Value) : Except Complaint Value :=
  match a.number?, b.number? with
  | some m, some n => match m.toInteger?, n.toInteger? with
    | some i, some j => .ok (.int (Number.bitwise op i j))
    | none, _ => .error (.noInteger .left)
    | _, none => .error (.noInteger .right)
  | _, _ => .error (complainOf "perform bitwise operation on" Value.isNumber a b)

/-! ## Strings and order -/

/-- Two values written one behind the other. -/
def concatenate (a b : Value) : Except Complaint Value :=
  match a.bytes?, b.bytes? with
  | some s, some t => .ok (.string (s ++ t))
  | _, _ => .error (complainOf "concatenate" (fun v => v.bytes?.isSome) a b)

/-- Whether a byte string is before another. -/
def Bytes.lt : Bytes → Bytes → Bool
  | _, [] => false
  | [], _ :: _ => true
  | a :: s, b :: t => a < b || (a == b && lt s t)

/-- Whether a value is below another. -/
def less (a b : Value) : Except Complaint Bool :=
  match a, b with
  | .number m, .number n => .ok (m.lt n)
  | .string s, .string t => .ok (Bytes.lt s t)
  | _, _ => .error (.noOrder a.typeName b.typeName)

/-- Whether a value is at or below another. -/
def lessEqual (a b : Value) : Except Complaint Bool :=
  match a, b with
  | .number m, .number n => .ok (m.le n)
  | .string s, .string t => .ok (!Bytes.lt t s)
  | _, _ => .error (.noOrder a.typeName b.typeName)

/-! ## Operators -/

/-- **An operation on two values** that are both needed. -/
def BinaryOp.apply (op : BinaryOp) (a b : Value) : Except Complaint Value :=
  match op with
  | .add | .sub | .mul | .div | .floorDiv | .mod | .pow => arithmetic op a b
  | .bitAnd | .bitOr | .bitXor | .shiftLeft | .shiftRight => bitwise op a b
  | .concat => concatenate a b
  | .eq => .ok (.bool (a.rawEq b))
  | .ne => .ok (.bool (!a.rawEq b))
  | .lt => (less a b).map .bool
  | .le => (lessEqual a b).map .bool
  | .gt => (less b a).map .bool
  | .ge => (lessEqual b a).map .bool
  | .and => .ok (if a.truth then b else a)
  | .or => .ok (if a.truth then a else b)

/-- **An operation on one value.** The length of a table is looked up in the machine. -/
def UnaryOp.apply (op : UnaryOp) (m : Machine) (a : Value) : Except Complaint Value :=
  match op with
  | .not => .ok (.bool !a.truth)
  | .negate => match a.number? with
    | some (.int n) => .ok (.int (-n))
    | some (.float x) => .ok (.float (-x))
    | none => .error (.wrongType "perform arithmetic on" .left a.typeName)
  | .bitNot => match a.number? with
    | some n => match n.toInteger? with
      | some i => .ok (.int (~~~ i))
      | none => .error (.noInteger .left)
    | none => .error (.wrongType "perform bitwise operation on" .left a.typeName)
  | .length => match a with
    | .string s => .ok (.nat s.length)
    | .table n => .ok (.nat (m.tables.getD n {}).border)
    | _ => .error (.wrongType "get length of" .left a.typeName)

end Stencil.Lua
