import ShapeFault.Text.Occurs

/-!
# Policies

A policy says which failures are worth a diagnosis: those whose message holds one of its
**sentinels**.
-/

namespace ShapeFault

structure Policy where
  sentinels : List String
  deriving DecidableEq, Repr

namespace Policy

/-- The policy in use where no other is given. -/
def standard : Policy :=
  ⟨["matmul", "THTensorMath", "tensor", "tensors", "dimension", "not aligned", "size mismatch",
    "shape", "shapes"]⟩

/-- Whether a message holds a sentinel. -/
def isInteresting (p : Policy) (message : String) : Bool :=
  p.sentinels.any fun s => Text.occurs s.toList message.toList

/-- The classification of failures by their messages, for hosts whose failures say nothing else
about what they are. -/
def isShapeFailure {E : Type} (p : Policy) (errorText : E → String) (e : E) : Bool :=
  p.isInteresting (errorText e)

end Policy

end ShapeFault
