import ShapeFault.Policy.Basic
import ShapeFault.Tensor.Error

/-!
# Sentinels in messages

A policy finds its sentinels wherever they stand in a message, so what follows a text in which there
is one changes nothing. The failures of the shape class are told apart by their messages too: each
message of the class starts with a text that holds a sentinel of the standard policy, whatever
sizes, shapes and indices are written behind it (`HostError.isInteresting_message`).
-/

namespace ShapeFault

/-- `occurs` finds a text exactly where it stands without gaps. -/
theorem Text.occurs_iff_infix {pattern cs : List Char} : occurs pattern cs ↔ pattern <:+: cs := by
  induction cs with
  | nil => rw [occurs, List.isEmpty_iff, List.infix_nil]
  | cons c cs ih =>
    rw [occurs, Bool.or_eq_true, List.isPrefixOf_iff_prefix, ih, List.infix_cons_iff]

namespace Policy

variable {p : Policy} {s : String}

theorem isInteresting_iff :
    p.isInteresting s ↔ ∃ sentinel ∈ p.sentinels, sentinel.toList <:+: s.toList := by
  simp only [isInteresting, List.any_eq_true, Text.occurs_iff_infix]

/-- A sentinel is found whatever follows the text in which it stands. -/
theorem isInteresting_append (sentinel : String) (hmem : sentinel ∈ p.sentinels)
    (h : Text.occurs sentinel.toList s.toList) (rest : String) : p.isInteresting (s ++ rest) := by
  refine isInteresting_iff.mpr ⟨sentinel, hmem, ?_⟩
  rw [String.toList_append]
  exact (Text.occurs_iff_infix.mp h).trans (List.prefix_append _ _).isInfix

end Policy

/-- The shapes of operands that do not fit together are an interesting failure. -/
theorem ShapeError.isInteresting_message {e : ShapeError} (h : e.isMismatch) :
    Policy.standard.isInteresting e.message := by
  cases e with
  | notBroadcastable | notAligned =>
    unfold message
    simp only [String.append_assoc]
    exact Policy.isInteresting_append "shape" (by decide) (by decide +kernel) _
  | innerSizes | scalarFactor =>
    unfold message
    simp only [String.append_assoc]
    exact Policy.isInteresting_append "matmul" (by decide) (by decide +kernel) _
  | tooManyIndices | notReshapable =>
    unfold message
    simp only [String.append_assoc]
    exact Policy.isInteresting_append "tensor" (by decide) (by decide +kernel) _
  | partRank | partSize =>
    unfold message
    simp only [String.append_assoc]
    exact Policy.isInteresting_append "dimension" (by decide) (by decide +kernel) _
  | indexOutOfBounds | axisOutOfBounds | manyEllipses | noParts | zeroStep | manyUnknownSizes
  | abort => cases h

/-- **Every failure of the shape class is interesting** to the standard policy. -/
theorem HostError.isInteresting_message {e : HostError} (h : e.isShapeClass) :
    Policy.standard.isInteresting e.message := by
  cases e with
  | shape e => exact ShapeError.isInteresting_message h
  | inhomogeneous depth =>
    unfold message
    simp only [String.append_assoc]
    exact Policy.isInteresting_append "shape" (by decide) (by decide +kernel) _
  | _ => cases h

end ShapeFault
