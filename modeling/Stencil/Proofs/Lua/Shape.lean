import Stencil.Lua.Tree
set_option autoImplicit false

/-!
# Trees without lines

The lines in a syntax tree say where a program stands and not what it does. Two texts with the same
tokens have the same tree but for them.

## Main definitions

* `Stencil.Lua.Exp.shape`, `Field.shape`, `Stat.shape` — a tree with all its lines left out.

## Main results

* `Stencil.Lua.Stat.shapes_eq_map` — statements lose their lines one by one.
* `Stencil.Lua.Exp.isTarget_shape`, `Exp.isCall_shape` — what an expression is for does not depend
  on lines.
-/

namespace Stencil.Lua

mutual

/-- **An expression without its lines.** -/
def Exp.shape : Exp → Exp
  | .nil => .nil
  | .bool b => .bool b
  | .number n => .number n
  | .string b => .string b
  | .varargs _ => .varargs 0
  | .function params variadic body _ => .function params variadic (Stat.shapes body) 0
  | .var name => .var name
  | .index _ object key => .index 0 object.shape key.shape
  | .call _ f args => .call 0 f.shape (Exp.shapes args)
  | .method _ object name args => .method 0 object.shape name (Exp.shapes args)
  | .unary _ op e => .unary 0 op e.shape
  | .binary _ op left right => .binary 0 op left.shape right.shape
  | .table _ fields => .table 0 (Field.shapes fields)
  | .paren e => .paren e.shape

/-- Expressions without their lines. -/
def Exp.shapes : List Exp → List Exp
  | [] => []
  | e :: es => e.shape :: Exp.shapes es

/-- An item of a table without its lines. -/
def Field.shape : Field → Field
  | .item e => .item e.shape
  | .entry key value => .entry key.shape value.shape

/-- Items of a table without their lines. -/
def Field.shapes : List Field → List Field
  | [] => []
  | f :: fs => f.shape :: Field.shapes fs

/-- **A statement without its lines.** -/
def Stat.shape : Stat → Stat
  | .declare names values => .declare names (Exp.shapes values)
  | .declareFunction name f => .declareFunction name f.shape
  | .assign _ targets values => .assign 0 (Exp.shapes targets) (Exp.shapes values)
  | .call e => .call e.shape
  | .scope body => .scope (Stat.shapes body)
  | .whileLoop condition body => .whileLoop condition.shape (Stat.shapes body)
  | .repeatLoop body condition => .repeatLoop (Stat.shapes body) condition.shape
  | .choose condition yes no => .choose condition.shape (Stat.shapes yes) (Stat.shapes no)
  | .numericFor _ name start limit step body =>
    .numericFor 0 name start.shape limit.shape step.shape (Stat.shapes body)
  | .genericFor _ names values body =>
    .genericFor 0 names (Exp.shapes values) (Stat.shapes body)
  | .yields values => .yields (Exp.shapes values)
  | .leave => .leave
  | .jump label => .jump label
  | .label _ name => .label 0 name

/-- Statements without their lines. -/
def Stat.shapes : List Stat → List Stat
  | [] => []
  | s :: ss => s.shape :: Stat.shapes ss

end

@[simp] theorem Exp.shapes_eq_map (es : List Exp) : Exp.shapes es = es.map Exp.shape := by
  induction es with
  | nil => rfl
  | cons e es ih => rw [Exp.shapes, ih, List.map_cons]

@[simp] theorem Field.shapes_eq_map (fs : List Field) : Field.shapes fs = fs.map Field.shape := by
  induction fs with
  | nil => rfl
  | cons f fs ih => rw [Field.shapes, ih, List.map_cons]

@[simp] theorem Stat.shapes_eq_map (b : List Stat) : Stat.shapes b = b.map Stat.shape := by
  induction b with
  | nil => rfl
  | cons s b ih => rw [Stat.shapes, ih, List.map_cons]

/-- A field of an object, without lines. -/
theorem Exp.shape_field (line : Nat) (object : Exp) (name : Ident) :
    (Exp.field line object name).shape = Exp.field 0 object.shape name := by
  simp only [Exp.field, Exp.shape]

/-- A choice without lines. -/
theorem Stat.shape_choose (condition : Exp) (yes no : List Stat) :
    (Stat.choose condition yes no).shape =
      .choose condition.shape (yes.map Stat.shape) (no.map Stat.shape) := by
  simp only [Stat.shape, Stat.shapes_eq_map]

/-- Lines do not matter for whether an expression can be assigned to. -/
theorem Exp.isTarget_shape (e : Exp) : e.shape.isTarget = e.isTarget := by
  cases e <;> rfl

/-- Lines do not matter for whether an expression is a call. -/
theorem Exp.isCall_shape (e : Exp) : e.shape.isCall = e.isCall := by
  cases e <;> rfl

end Stencil.Lua
