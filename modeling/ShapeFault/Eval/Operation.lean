import ShapeFault.Expr.Basic

/-!
# Operations

What an evaluation asks of the world that it runs in. The evaluator never looks into values: it
hands each operation, with its evaluated operands, to a `Host` and goes on with the answer.
-/

namespace ShapeFault

/-- An evaluated item of an index. Absent bounds of slices stay absent. -/
inductive IndexValue (V : Type) where
  | value (v : V)
  | slice (start stop step : Option V)
  | full
  | ellipsis
  deriving DecidableEq, Repr

/-- An operation together with its operands. -/
inductive Operation (V : Type) where
  | literal (lit : Literal)
  | unary (op : UnaryOp) (operand : V)
  | binary (op : BinaryOp) (left right : V)
  | member (object : V) (id : String)
  | call (callee : V) (args : List V)
  | index (array : V) (items : List (IndexValue V))
  | list (elems : List V)

/-- A world in which operations are performed: values `V`, failures `E`. -/
abbrev Host (V E : Type) :=
  Operation V → Except E V

/-- The operands of an operation that can fail for the shapes of its operands. -/
inductive Operands (V : Type) where
  | unary (operand : V)
  | binary (left right : V)
  | call (callee : V) (args : List V)
  | index (array : V) (items : List (IndexValue V))
  deriving DecidableEq, Repr

/-- The operands of an operation, if it can fail for their shapes: the unary and binary operations,
calls and indexing. -/
def Operation.operands? {V : Type} : Operation V → Option (Operands V)
  | unary _ v => some (.unary v)
  | binary _ v w => some (.binary v w)
  | call f args => some (.call f args)
  | index a items => some (.index a items)
  | literal _ | member _ _ | list _ => none

end ShapeFault
