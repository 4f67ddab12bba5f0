import ShapeFault.Shape.Error

/-!
# Broadcasting

Two shapes are aligned at their last axes; an axis of size one, or one that is missing, takes the
size of the other.
-/

namespace ShapeFault.Shape

/-- The common size of two axes. -/
def joinSizes (m n : Nat) : Option Nat :=
  if m = n then some m
  else if m = 1 then some n
  else if n = 1 then some m
  else none

/-- The common sizes of two lists of axes, both given from the last axis on. -/
def joinReversed : List Nat → List Nat → Option (List Nat)
  | [], ns => some ns
  | ms, [] => some ms
  | m :: ms, n :: ns => do
    let k ← joinSizes m n
    let ks ← joinReversed ms ns
    some (k :: ks)

/-- The common shape of two shapes, if there is one. -/
def broadcast? (left right : Shape) : Option Shape :=
  (joinReversed left.reverse right.reverse).map List.reverse

/-- The common shape of two shapes. -/
def broadcast (left right : Shape) : Except ShapeError Shape :=
  match broadcast? left right with
  | some s => .ok s
  | none => .error (.notBroadcastable left right)

end ShapeFault.Shape
