import ShapeFault.Decimal.Basic
import ShapeFault.Shape.Basic

/-!
# Errors about shapes

Why an operation on shapes has no result. Some of these are a **mismatch** between the shapes of the
operands; the others are requests that make no sense for any shape, or places that a shape does not
have.

One is no failure of an operation. `ShapeError.abort` says that a size on the way left its word,
which ends the program: it is handed on like an error, and whoever runs the operation ends with it.
-/

namespace ShapeFault

inductive ShapeError where
  /-- two sizes differ and neither is one -/
  | notBroadcastable (left right : Shape)
  /-- the inner sizes of a matrix product differ -/
  | innerSizes (expected found : Nat)
  /-- an operand of a matrix product, 0 or 1, has no axis -/
  | scalarFactor (operand : Nat)
  /-- the axes that a dot product sums over differ in size -/
  | notAligned (left right : Shape) (leftSize leftAxis rightSize rightAxis : Nat)
  | tooManyIndices (rank given : Nat)
  /-- the part at `position` has another rank than the first -/
  | partRank (position expected found : Nat)
  /-- the part at `position` has another size along `axis` than the first -/
  | partSize (axis position expected found : Nat)
  | notReshapable (source : Shape) (requested : List Int)
  | indexOutOfBounds (index : Int) (axis size : Nat)
  | axisOutOfBounds (axis : Int) (rank : Nat)
  | manyEllipses
  | noParts
  | zeroStep
  | manyUnknownSizes (count : Nat)
  /-- a size or a place left its word, and the program ends without an answer -/
  | abort
  deriving DecidableEq, Repr

namespace ShapeError

/-- Whether the shapes of the operands do not fit together. -/
def isMismatch : ShapeError → Bool
  | notBroadcastable _ _ | innerSizes _ _ | scalarFactor _ | notAligned .. | tooManyIndices _ _
  | partRank .. | partSize .. | notReshapable _ _ => true
  | indexOutOfBounds .. | axisOutOfBounds _ _ | manyEllipses | noParts | zeroStep
  | manyUnknownSizes _ | abort => false

def message : ShapeError → String
  | notBroadcastable left right =>
    "operands could not be broadcast together with shapes " ++ left.text ++ " " ++ right.text
  | innerSizes expected found =>
    "matmul: Input operand 1 has a mismatch in its core dimension 0 (size " ++ found.repr ++
      " is different from " ++ expected.repr ++ ")"
  | scalarFactor operand =>
    "matmul: Input operand " ++ operand.repr ++ " does not have enough dimensions"
  | notAligned left right leftSize leftAxis rightSize rightAxis =>
    "shapes " ++ left.text ++ " and " ++ right.text ++ " not aligned: " ++ leftSize.repr ++
      " (dim " ++ leftAxis.repr ++ ") != " ++ rightSize.repr ++ " (dim " ++ rightAxis.repr ++ ")"
  | tooManyIndices rank given =>
    "too many indices for tensor: tensor is " ++ rank.repr ++ "-dimensional, but " ++ given.repr ++
      " were indexed"
  | partRank position expected found =>
    "all the input arrays must have same number of dimensions, but the array at index 0 has " ++
      expected.repr ++ " dimension(s) and the array at index " ++ position.repr ++ " has " ++
      found.repr ++ " dimension(s)"
  | partSize axis position expected found =>
    "all the input array dimensions except for the concatenation axis must match exactly, but " ++
      "along dimension " ++ axis.repr ++ ", the array at index 0 has size " ++ expected.repr ++
      " and the array at index " ++ position.repr ++ " has size " ++ found.repr
  | notReshapable source requested =>
    "cannot reshape tensor of shape " ++ source.text ++ " into shape (" ++
      String.intercalate ", " (requested.map Decimal.intText) ++ ")"
  | indexOutOfBounds index axis size =>
    "index " ++ Decimal.intText index ++ " is out of bounds for axis " ++ axis.repr ++
      " with size " ++ size.repr
  | axisOutOfBounds axis rank =>
    "axis " ++ Decimal.intText axis ++ " is out of bounds for tensor of rank " ++ rank.repr
  | manyEllipses => "an index can only have a single ellipsis ('...')"
  | noParts => "need at least one tensor to concatenate"
  | zeroStep => "slice step cannot be zero"
  | manyUnknownSizes count =>
    "can only reshape with a single unknown size, got " ++ count.repr
  | abort => ""

/-- A number that has to be in its word for the program to go on. -/
def orAbort {α : Type} : Option α → Except ShapeError α
  | some a => .ok a
  | none => .error abort

section OrAbort

variable {α : Type} {x : Option α} {a : α} {e : ShapeError}

theorem orAbort_eq_ok_iff : orAbort x = .ok a ↔ x = some a := by
  cases x <;> simp [orAbort]

theorem orAbort_eq_error_iff : orAbort x = .error e ↔ x = none ∧ e = abort := by
  cases x <;> simp [orAbort, eq_comm]

end OrAbort

end ShapeError

end ShapeFault
