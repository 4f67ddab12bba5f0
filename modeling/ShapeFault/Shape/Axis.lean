import ShapeFault.Shape.Error

/-!
# Axes

Axes are named by their position from the front, or by a negative number from the back.
-/

namespace ShapeFault.Shape

/-- The position of an axis from the front. -/
def normalizeAxis (axis : Int) (rank : Nat) : Except ShapeError Nat :=
  let position := if axis < 0 then axis + Word.asSigned rank else axis
  if 0 ≤ position ∧ position < Word.asSigned rank then .ok position.toNat
  else .error (.axisOutOfBounds axis rank)

theorem lt_of_normalizeAxis {axis : Int} {rank k : Nat} (h : normalizeAxis axis rank = .ok k) :
    k < rank := by
  unfold normalizeAxis at h
  extract_lets position at h
  split at h
  · have hrank := Word.asSigned_le rank
    rw [← Except.ok.inj h]
    omega
  · cases h

/-- The shape with its axes in reverse order. -/
def transpose (s : Shape) : Shape :=
  s.reverse

/-- The shape with two of its axes exchanged. -/
def swapAxes (s : Shape) (first second : Int) : Except ShapeError Shape := do
  let i ← normalizeAxis first s.rank
  let j ← normalizeAxis second s.rank
  .ok ((s.set i (s.getD j 0)).set j (s.getD i 0))

/-- The shape without an axis, or without all of them. -/
def reduce (s : Shape) : Option Int → Except ShapeError Shape
  | none => .ok []
  | some axis => do
    let i ← normalizeAxis axis s.rank
    .ok (s.eraseIdx i)

end ShapeFault.Shape
