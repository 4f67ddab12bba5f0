import ShapeFault.Shape.Broadcast

/-!
# Products

The shapes of matrix products and dot products. An operand of a matrix product is a batch of
matrices; a vector is taken as a row on the left and as a column on the right, and the axis that is
added for that does not appear in the result.
-/

namespace ShapeFault.Shape

/-- An operand of a matrix product: the axes that count its matrices, the size along which it is
multiplied, and the other size unless it is a vector. -/
structure Factor where
  batch : Shape
  outer : Option Nat
  inner : Nat
  deriving DecidableEq, Repr

/-- A shape as the left operand of a matrix product. -/
def leftFactor? (s : Shape) : Option Factor :=
  match s.reverse with
  | [] => none
  | [n] => some ⟨[], none, n⟩
  | n :: m :: batch => some ⟨batch.reverse, some m, n⟩

/-- A shape as the right operand of a matrix product. -/
def rightFactor? (s : Shape) : Option Factor :=
  match s.reverse with
  | [] => none
  | [n] => some ⟨[], none, n⟩
  | p :: n :: batch => some ⟨batch.reverse, some p, n⟩

/-- The shape of a matrix product. Batches that cannot be broadcast are reported with the whole
operands. -/
def matmul (left right : Shape) : Except ShapeError Shape :=
  match leftFactor? left, rightFactor? right with
  | none, _ => .error (.scalarFactor 0)
  | _, none => .error (.scalarFactor 1)
  | some l, some r =>
    if l.inner ≠ r.inner then .error (.innerSizes l.inner r.inner)
    else
      match broadcast? l.batch r.batch with
      | some batch => .ok (batch ++ l.outer.toList ++ r.outer.toList)
      | none => .error (.notBroadcastable left right)

/-- The shape of a dot product: a sum over the last axis of `left` and the second-to-last axis of
`right`, or its only one. An operand without axes is a factor for the other one. -/
def dot (left right : Shape) : Except ShapeError Shape :=
  let leftAxis := left.rank - 1
  let rightAxis := right.rank - 2
  match left[leftAxis]?, right[rightAxis]? with
  | none, _ => .ok right
  | _, none => .ok left
  | some m, some n =>
    if m = n then .ok (left.take leftAxis ++ right.eraseIdx rightAxis)
    else .error (.notAligned left right m leftAxis n rightAxis)

end ShapeFault.Shape
