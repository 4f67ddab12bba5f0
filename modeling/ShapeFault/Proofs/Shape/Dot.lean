import ShapeFault.Proofs.Shape.Product
import ShapeFault.Tensor.Call

/-!
# Dot products and matrix products

Both products take their operands as factors and multiply along the inner sizes. They differ in the
batches: a matrix product broadcasts them, a dot product puts the axes of the left factor in front
of those of the right one (`toOption_dot_of_factors`).

Main statement: where one of the two has no batch to combine, because the left operand is a vector
or the right one at most a matrix, both products are the same (`dot_and_matmul_agree`).
-/

namespace ShapeFault.Shape

variable {a b : Shape}

/-! ### Factors -/

/-- A shape with axes is a left factor; its inner size is the last. -/
theorem exists_leftFactor (h : 1 ≤ a.rank) :
    ∃ l, leftFactor? a = some l ∧ a = l.batch ++ l.outer.toList ++ [l.inner] := by
  match hreverse : a.reverse with
  | [] =>
    rw [rank, List.reverse_eq_nil_iff.mp hreverse] at h
    cases h
  | [n] =>
    refine ⟨⟨[], none, n⟩, ?_, ?_⟩
    · rw [leftFactor?, hreverse]
    · rw [List.reverse_eq_iff.mp hreverse]
      rfl
  | n :: m :: batch =>
    refine ⟨⟨batch.reverse, some m, n⟩, ?_, ?_⟩
    · rw [leftFactor?, hreverse]
    · rw [List.reverse_eq_iff.mp hreverse]
      simp

/-- A shape with axes is a right factor; its inner size is the second-to-last, or the only one. -/
theorem exists_rightFactor (h : 1 ≤ b.rank) :
    ∃ r, rightFactor? b = some r ∧ b = r.batch ++ r.inner :: r.outer.toList ∧
      b.rank - 2 = r.batch.length := by
  match hreverse : b.reverse with
  | [] =>
    rw [rank, List.reverse_eq_nil_iff.mp hreverse] at h
    cases h
  | [n] =>
    refine ⟨⟨[], none, n⟩, ?_, ?_⟩
    · rw [rightFactor?, hreverse]
    · rw [List.reverse_eq_iff.mp hreverse]
      exact ⟨rfl, rfl⟩
  | p :: n :: batch =>
    refine ⟨⟨batch.reverse, some p, n⟩, ?_, ?_⟩
    · rw [rightFactor?, hreverse]
    · rw [List.reverse_eq_iff.mp hreverse]
      simp [rank]

/-! ### Products of factors -/

/-- **The dot product of two factors**: the inner sizes must be equal, and all other axes are kept,
those of the left factor in front. -/
theorem toOption_dot_of_factors {l r : Factor} (hl : a = l.batch ++ l.outer.toList ++ [l.inner])
    (hr : b = r.batch ++ r.inner :: r.outer.toList) (hrank : b.rank - 2 = r.batch.length) :
    (dot a b).toOption =
      if l.inner = r.inner then
        some (l.batch ++ l.outer.toList ++ (r.batch ++ r.outer.toList))
      else none := by
  have hleft : a.rank - 1 = (l.batch ++ l.outer.toList).length := by
    rw [hl, rank, List.length_append, List.length_singleton, Nat.add_sub_cancel]
  have hlast : a[(l.batch ++ l.outer.toList).length]? = some l.inner := by
    rw [hl]
    exact List.getElem?_concat_length
  have hfront : a.take (l.batch ++ l.outer.toList).length = l.batch ++ l.outer.toList := by
    rw [hl]
    exact List.take_left
  have hinner : b[r.batch.length]? = some r.inner := by
    rw [hr, List.getElem?_append_right (Nat.le_refl _), Nat.sub_self]
    rfl
  have herase : b.eraseIdx r.batch.length = r.batch ++ r.outer.toList := by
    rw [hr, List.eraseIdx_append_of_length_le (Nat.le_refl _), Nat.sub_self]
    rfl
  simp only [dot, hleft, hrank, hlast, hinner, hfront, herase]
  split <;> rfl

/-- Where the left factor is a vector or the right one has no batch, the axes of both are in the
same order in both products. -/
theorem broadcast?_batches {l r : Factor} (h : (l.batch = [] ∧ l.outer = none) ∨ r.batch = []) :
    (broadcast? l.batch r.batch).map (· ++ l.outer.toList ++ r.outer.toList) =
      some (l.batch ++ l.outer.toList ++ (r.batch ++ r.outer.toList)) := by
  rcases h with ⟨hbatch, houter⟩ | hbatch
  · rw [hbatch, houter, broadcast?_nil_left]
    simp
  · rw [hbatch, broadcast?_nil_right]
    simp

/-! ### Agreement -/

theorem toOption_ofShape (r : Except ShapeError Shape) :
    (Value.ofShape r).toOption = r.toOption.map .tensor := by
  cases r <;> rfl

/-- **Dot products and matrix products agree** if the left operand has one axis or the right one at
most two, both of them having axes: one succeeds exactly if the other does, and they give the same
shape. So do calls of the two functions on tensors of these shapes. -/
theorem dot_and_matmul_agree (ha : 1 ≤ a.rank) (hb : 1 ≤ b.rank) (h : a.rank = 1 ∨ b.rank ≤ 2) :
    (dot a b).toOption = (matmul a b).toOption ∧
      (Builtin.dot.call [.tensor a, .tensor b]).toOption =
        (Builtin.matmul.call [.tensor a, .tensor b]).toOption := by
  obtain ⟨l, hl, hla⟩ := exists_leftFactor ha
  obtain ⟨r, hr, hrb, hrank⟩ := exists_rightFactor hb
  have hbatches : (l.batch = [] ∧ l.outer = none) ∨ r.batch = [] := by
    refine h.imp (fun hone => ?_) fun htwo => ?_
    · rw [hla, rank, List.length_append, List.length_append, List.length_singleton] at hone
      have hbatch : l.batch.length = 0 := by omega
      have houter : l.outer.toList.length = 0 := by omega
      exact ⟨List.length_eq_zero_iff.mp hbatch,
        Option.toList_eq_nil_iff.mp (List.length_eq_zero_iff.mp houter)⟩
    · exact List.length_eq_zero_iff.mp (by omega)
  have hproducts : (dot a b).toOption = (matmul a b).toOption := by
    rw [toOption_dot_of_factors hla hrb hrank, toOption_matmul_of_factors hl hr,
      broadcast?_batches hbatches]
  have hcall : (Value.ofShape (dot a b)).toOption = (Value.ofShape (matmul a b)).toOption := by
    rw [toOption_ofShape, toOption_ofShape, hproducts]
  exact ⟨hproducts, hcall⟩

/-- A vector in front of a batch of matrices. -/
theorem vector_times_batch :
    1 ≤ rank [3] ∧ 1 ≤ rank [5, 7, 3, 4] ∧ (rank [3] = 1 ∨ rank [5, 7, 3, 4] ≤ 2) ∧
      matmul [3] [5, 7, 3, 4] = .ok [5, 7, 4] ∧
      (dot [3] [5, 7, 3, 4]).toOption = some [5, 7, 4] := by
  have hleft : 1 ≤ rank [3] := by decide
  have hright : 1 ≤ rank [5, 7, 3, 4] := by decide
  have hvector : rank [3] = 1 ∨ rank [5, 7, 3, 4] ≤ 2 := Or.inl rfl
  exact ⟨hleft, hright, hvector, rfl, (dot_and_matmul_agree hleft hright hvector).1.trans rfl⟩

end ShapeFault.Shape
