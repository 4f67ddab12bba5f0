import ShapeFault.Shape.Error

/-!
# Reshaping

A request lists the wanted sizes, one of which may be -1: it takes the size that keeps the number of
elements.
-/

namespace ShapeFault.Shape

/-- The shape that a request gives a tensor of shape `s`. -/
def reshape (s : Shape) (requested : List Int) : Except ShapeError Shape :=
  let unknown := requested.count (-1)
  let mismatch := Except.error (.notReshapable s requested)
  if 1 < unknown then .error (.manyUnknownSizes unknown)
  else if requested.any (· < -1) then mismatch
  else
    match s.elementCount, checkedProduct ((requested.filter (0 ≤ ·)).map Int.toNat) with
    | some size, some known =>
      if unknown = 1 then
        if known = 0 ∨ size % known ≠ 0 then mismatch
        else .ok (requested.map fun d => if d < 0 then size / known else d.toNat)
      else if known = size then .ok (requested.map Int.toNat)
      else mismatch
    | _, _ => mismatch

end ShapeFault.Shape
