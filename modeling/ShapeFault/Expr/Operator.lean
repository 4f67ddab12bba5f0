import ShapeFault.Token.Kind

/-!
# Operators

The operators of expressions and assignments, each tied to the kind of token that writes it. A
binary operator also has a **binding**: of two operators the one with the larger binding takes its
operands first. All of them associate to the left but the power.
-/

namespace ShapeFault

open Token (Kind)

inductive UnaryOp where
  | neg
  | not
  deriving DecidableEq, Repr

inductive BinaryOp where
  | add
  | sub
  | mul
  | div
  | floorDiv
  | mod
  | pow
  | matmul
  | eq
  | ne
  | lt
  | le
  | gt
  | ge
  | and
  | or
  deriving DecidableEq, Repr

/-- `set` is the plain assignment, the others combine the old value with the new one. -/
inductive AssignOp where
  | set
  | add
  | sub
  | mul
  | div
  | pow
  | matmul
  deriving DecidableEq, Repr

namespace UnaryOp

def kind : UnaryOp → Kind
  | neg => .minus
  | not => .notWord

def symbol (op : UnaryOp) : String :=
  op.kind.spelling

/-- Every unary operator. -/
def all : List UnaryOp :=
  [neg, not]

/-- The operator that a token of this kind writes in front of an operand. -/
def ofKind? (k : Kind) : Option UnaryOp :=
  all.find? fun op => op.kind = k

theorem ofKind?_kind (op : UnaryOp) : ofKind? op.kind = some op := by
  cases op <;> decide

end UnaryOp

namespace BinaryOp

def kind : BinaryOp → Kind
  | add => .plus
  | sub => .minus
  | mul => .star
  | div => .slash
  | floorDiv => .doubleSlash
  | mod => .percent
  | pow => .doubleStar
  | matmul => .atSign
  | eq => .doubleEqual
  | ne => .notEqual
  | lt => .less
  | le => .lessEqual
  | gt => .greater
  | ge => .greaterEqual
  | and => .andWord
  | or => .orWord

def symbol (op : BinaryOp) : String :=
  op.kind.spelling

/-- Every binary operator. -/
def all : List BinaryOp :=
  [add, sub, mul, div, floorDiv, mod, pow, matmul, eq, ne, lt, le, gt, ge, and, or]

/-- The operator that a token of this kind writes between two operands. -/
def ofKind? (k : Kind) : Option BinaryOp :=
  all.find? fun op => op.kind = k

theorem ofKind?_kind (op : BinaryOp) : ofKind? op.kind = some op := by
  cases op <;> decide

/-- How tightly an operator binds, from the boolean operators up to the power. -/
def binding : BinaryOp → Nat
  | and | or => 1
  | eq | ne | lt | le | gt | ge => 2
  | add | sub => 3
  | mul | div | floorDiv | mod => 4
  | matmul => 5
  | pow => 6

/-- The least binding of the operators that are still open to the left and take their right operand
before this one is applied. For an operator that associates to the left these are the ones that bind
at least as tightly; a power leaves an earlier power waiting. -/
def closes : BinaryOp → Nat
  | pow => 7
  | op => op.binding

end BinaryOp

namespace AssignOp

def kind : AssignOp → Kind
  | set => .equal
  | add => .plusEqual
  | sub => .minusEqual
  | mul => .starEqual
  | div => .slashEqual
  | pow => .doubleStarEqual
  | matmul => .atEqual

def symbol (op : AssignOp) : String :=
  op.kind.spelling

/-- Every assignment operator. -/
def all : List AssignOp :=
  [set, add, sub, mul, div, pow, matmul]

/-- The operator that a token of this kind writes between a target and a value. -/
def ofKind? (k : Kind) : Option AssignOp :=
  all.find? fun op => op.kind = k

theorem ofKind?_kind (op : AssignOp) : ofKind? op.kind = some op := by
  cases op <;> decide

end AssignOp

end ShapeFault
