import ShapeFault.Proofs.Shape.Grouping
import ShapeFault.Shape.Axis
import ShapeFault.Shape.Product

/-!
# Products of batches of matrices

A shape of two axes or more is a batch of matrices: its last two axes are those of a matrix, the
axes in front of them count the matrices. On such shapes a matrix product broadcasts the batches and
multiplies the sizes of the matrices (`toOption_matmul`), and exchanging the last two axes
transposes each matrix (`toOption_swapAxes`).

Main statement: products of batches are associative, and transposing a product reverses it
(`matrix_products_associate_and_reverse`). The batches take part through the associativity and
commutativity of broadcasting only.
-/

namespace ShapeFault.Shape

variable {a b c : Shape}

/-! ### Batches of matrices -/

/-- A shape of two axes or more is a batch of matrices. -/
theorem exists_batch (h : 2 ≤ a.rank) : ∃ (batch : Shape) (m n : Nat), a = batch ++ [m, n] := by
  rw [rank, ← List.length_reverse] at h
  match hreverse : a.reverse with
  | [] | [_] =>
    rw [hreverse] at h
    simp at h
  | n :: m :: batch =>
    refine ⟨batch.reverse, m, n, ?_⟩
    rw [← List.reverse_inj, hreverse]
    simp

/-- **The product of two factors**: the inner sizes must be equal, the batches are broadcast and the
outer sizes are kept. -/
theorem toOption_matmul_of_factors {l r : Factor} (hl : leftFactor? a = some l)
    (hr : rightFactor? b = some r) :
    (matmul a b).toOption =
      if l.inner = r.inner then
        (broadcast? l.batch r.batch).map (· ++ l.outer.toList ++ r.outer.toList)
      else none := by
  rw [matmul, hl, hr]
  by_cases hinner : l.inner = r.inner
  · simp only [hinner, ne_eq, not_true_eq_false, if_false, if_true]
    cases broadcast? l.batch r.batch <;> rfl
  · simp only [hinner, ne_eq, not_false_eq_true, if_true, if_false]
    rfl

/-- **The product of two batches of matrices.** -/
theorem toOption_matmul (A B : Shape) (m k l n : Nat) :
    (matmul (A ++ [m, k]) (B ++ [l, n])).toOption =
      if k = l then (broadcast? A B).map (· ++ [m, n]) else none := by
  have hleft : leftFactor? (A ++ [m, k]) = some ⟨A, some m, k⟩ := by
    simp [leftFactor?]
  have hright : rightFactor? (B ++ [l, n]) = some ⟨B, some n, l⟩ := by
    simp [rightFactor?]
  rw [toOption_matmul_of_factors hleft hright]
  simp only [Option.toList_some, List.append_assoc, List.singleton_append]

/-! ### Three factors -/

theorem toOption_matmul_bind_left (A B C : Shape) (m k l p q n : Nat) :
    (matmul (A ++ [m, k]) (B ++ [l, p]) >>= fun d => matmul d (C ++ [q, n])).toOption =
      if k = l ∧ p = q then ((broadcast? A B).bind (broadcast? · C)).map (· ++ [m, n])
      else none := by
  rw [toOption_bind, toOption_matmul]
  by_cases hkl : k = l
  · by_cases hpq : p = q
    · have hlast (d : Shape) : (matmul (d ++ [m, p]) (C ++ [q, n])).toOption =
          (broadcast? d C).map (· ++ [m, n]) := by
        rw [toOption_matmul, if_pos hpq]
      rw [if_pos hkl, if_pos ⟨hkl, hpq⟩, Option.bind_map, Option.map_bind]
      exact Option.bind_congr fun d _ => hlast d
    · simp [hkl, hpq, toOption_matmul]
  · simp [hkl]

theorem toOption_matmul_bind_right (A B C : Shape) (m k l p q n : Nat) :
    (matmul (B ++ [l, p]) (C ++ [q, n]) >>= fun d => matmul (A ++ [m, k]) d).toOption =
      if k = l ∧ p = q then ((broadcast? B C).bind (broadcast? A)).map (· ++ [m, n])
      else none := by
  rw [toOption_bind, toOption_matmul]
  by_cases hpq : p = q
  · by_cases hkl : k = l
    · have hfirst (d : Shape) : (matmul (A ++ [m, k]) (d ++ [l, n])).toOption =
          (broadcast? A d).map (· ++ [m, n]) := by
        rw [toOption_matmul, if_pos hkl]
      rw [if_pos hpq, if_pos ⟨hkl, hpq⟩, Option.bind_map, Option.map_bind]
      exact Option.bind_congr fun d _ => hfirst d
    · simp [hkl, hpq, toOption_matmul]
  · simp [hpq]

/-- **Matrix products are associative.** -/
theorem matmul_assoc (ha : 2 ≤ a.rank) (hb : 2 ≤ b.rank) (hc : 2 ≤ c.rank) :
    (matmul a b >>= fun d => matmul d c).toOption =
      (matmul b c >>= fun d => matmul a d).toOption := by
  obtain ⟨A, m, k, rfl⟩ := exists_batch ha
  obtain ⟨B, l, p, rfl⟩ := exists_batch hb
  obtain ⟨C, q, n, rfl⟩ := exists_batch hc
  rw [toOption_matmul_bind_left, toOption_matmul_bind_right, broadcast?_assoc]

/-! ### Transposed matrices -/

/-- An axis counted from the last is a position if the number of axes is a word with a sign. -/
theorem normalizeAxis_of_neg {r : Nat} {axis : Int} (hr : r < Word.half) (hneg : axis < 0)
    (hle : -r ≤ axis) : normalizeAxis axis r = .ok (axis + r).toNat := by
  rw [normalizeAxis, Word.asSigned_of_lt hr, if_pos hneg]
  exact if_pos ⟨by omega, by omega⟩

/-- A number of axes that is taken for a negative one leaves no position. -/
theorem normalizeAxis_of_half_le {r : Nat} {axis : Int} (hr : Word.half ≤ r)
    (hcount : r < Word.count) (hneg : axis < 0) :
    normalizeAxis axis r = .error (.axisOutOfBounds axis r) := by
  have hsigned : Word.asSigned r < 0 := by
    simp only [Word.half, Word.count] at hr hcount
    simp only [Word.asSigned, Word.count, Int.bmod_def]
    omega
  rw [normalizeAxis, if_pos hneg]
  exact if_neg fun h => by omega

/-- **Exchanging the last two axes** transposes every matrix of a batch. -/
theorem toOption_swapAxes (A : Shape) (m n : Nat) (hcount : A.length + 2 < Word.count) :
    (swapAxes (A ++ [m, n]) (-1) (-2)).toOption =
      if A.length + 2 < Word.half then some (A ++ [n, m]) else none := by
  have hrank : rank (A ++ [m, n]) = A.length + 2 := List.length_append
  rw [swapAxes, hrank]
  by_cases hr : A.length + 2 < Word.half
  · have hlast : (-1 + ↑(A.length + 2) : Int).toNat = A.length + 1 := by omega
    have hother : (-2 + ↑(A.length + 2) : Int).toNat = A.length := by omega
    rw [normalizeAxis_of_neg hr (by decide) (by omega),
      normalizeAxis_of_neg hr (by decide) (by omega), hlast, hother, if_pos hr]
    change some _ = some _
    simp
  · rw [normalizeAxis_of_half_le (Nat.le_of_not_lt hr) hcount (by decide), if_neg hr]
    rfl

/-- A product whose last axes are exchanged: they can be found if those of both factors can. -/
theorem toOption_matmul_bind_swapAxes {A B : Shape} (hA : A.length + 2 < Word.count)
    (hB : B.length + 2 < Word.count) (m k l n : Nat) :
    (matmul (A ++ [m, k]) (B ++ [l, n]) >>= fun d => swapAxes d (-1) (-2)).toOption =
      if k = l ∧ A.length + 2 < Word.half ∧ B.length + 2 < Word.half then
        (broadcast? A B).map (· ++ [n, m])
      else none := by
  rw [toOption_bind, toOption_matmul]
  by_cases hkl : k = l
  · rw [if_pos hkl]
    cases hbatch : broadcast? A B with
    | none => simp
    | some D =>
      have hD : D.length = max A.length B.length := (broadcast?_eq_some_iff.mp hbatch).1
      have hlt (w : Nat) : D.length + 2 < w ↔ A.length + 2 < w ∧ B.length + 2 < w := by
        omega
      rw [Option.map_some, Option.bind_some, toOption_swapAxes D m n ((hlt _).mpr ⟨hA, hB⟩)]
      by_cases hhalf : A.length + 2 < Word.half ∧ B.length + 2 < Word.half
      · rw [if_pos ((hlt _).mpr hhalf), if_pos ⟨hkl, hhalf⟩, Option.map_some]
      · rw [if_neg fun h => hhalf ((hlt _).mp h), if_neg fun h => hhalf h.2]
  · rw [if_neg hkl, if_neg fun h => hkl h.1, Option.bind_none]

/-- The product of the factors in reverse order, each with its last axes exchanged. -/
theorem toOption_swapAxes_bind_matmul {A B : Shape} (hA : A.length + 2 < Word.count)
    (hB : B.length + 2 < Word.count) (m k l n : Nat) :
    (do
      let b ← swapAxes (B ++ [l, n]) (-1) (-2)
      let a ← swapAxes (A ++ [m, k]) (-1) (-2)
      matmul b a).toOption =
      if k = l ∧ A.length + 2 < Word.half ∧ B.length + 2 < Word.half then
        (broadcast? A B).map (· ++ [n, m])
      else none := by
  simp only [toOption_bind, toOption_swapAxes _ _ _ hA, toOption_swapAxes _ _ _ hB]
  by_cases hBhalf : B.length + 2 < Word.half
  · by_cases hAhalf : A.length + 2 < Word.half
    · rw [if_pos hBhalf, if_pos hAhalf, Option.bind_some, Option.bind_some, toOption_matmul,
        broadcast?_comm B A]
      by_cases hkl : k = l
      · rw [if_pos hkl.symm, if_pos ⟨hkl, hAhalf, hBhalf⟩]
      · rw [if_neg (Ne.symm hkl), if_neg fun h => hkl h.1]
    · have hnot : ¬(k = l ∧ A.length + 2 < Word.half ∧ B.length + 2 < Word.half) :=
        fun h => hAhalf h.2.1
      rw [if_pos hBhalf, if_neg hAhalf, if_neg hnot]
      rfl
  · have hnot : ¬(k = l ∧ A.length + 2 < Word.half ∧ B.length + 2 < Word.half) :=
      fun h => hBhalf h.2.2
    rw [if_neg hBhalf, if_neg hnot]
    rfl

/-- **Matrix products are associative and reversed by transposing.** Let shapes have two axes or
more, and compare results without their errors, so that two that fail are the same. Then a product
of three does not depend on its bracketing, and the product of two with its last axes exchanged is
that of the second and the first with theirs exchanged; only that numbers of axes are words is
asked for. -/
theorem matrix_products_associate_and_reverse (ha : 2 ≤ a.rank) (hb : 2 ≤ b.rank)
    (hc : 2 ≤ c.rank) :
    (matmul a b >>= fun d => matmul d c).toOption =
        (matmul b c >>= fun d => matmul a d).toOption ∧
      (a.rank < Word.count → b.rank < Word.count →
        (matmul a b >>= fun d => swapAxes d (-1) (-2)).toOption =
          (do
            let b' ← swapAxes b (-1) (-2)
            let a' ← swapAxes a (-1) (-2)
            matmul b' a').toOption) := by
  refine ⟨matmul_assoc ha hb hc, fun hacount hbcount => ?_⟩
  obtain ⟨A, m, k, rfl⟩ := exists_batch ha
  obtain ⟨B, l, n, rfl⟩ := exists_batch hb
  rw [rank, List.length_append] at hacount hbcount
  rw [toOption_matmul_bind_swapAxes hacount hbcount, toOption_swapAxes_bind_matmul hacount hbcount]

/-- Batches of different ranks, with matrices that are not square. -/
theorem product_of_three_batches :
    2 ≤ rank [5, 2, 3] ∧ 2 ≤ rank [3, 4] ∧ 2 ≤ rank [7, 1, 4, 6] ∧ rank [5, 2, 3] < Word.count ∧
      rank [3, 4] < Word.count ∧
      (matmul [3, 4] [7, 1, 4, 6] >>= fun d => matmul [5, 2, 3] d).toOption = some [7, 5, 2, 6] ∧
      (matmul [5, 2, 3] [3, 4] >>= fun d => matmul d [7, 1, 4, 6]).toOption = some [7, 5, 2, 6] ∧
      (do
        let b ← swapAxes [3, 4] (-1) (-2)
        let a ← swapAxes [5, 2, 3] (-1) (-2)
        matmul b a).toOption = some [5, 4, 2] ∧
      (matmul [5, 2, 3] [3, 4] >>= fun d => swapAxes d (-1) (-2)).toOption = some [5, 4, 2] := by
  have ha : 2 ≤ rank [5, 2, 3] := by decide
  have hb : 2 ≤ rank [3, 4] := by decide
  have hc : 2 ≤ rank [7, 1, 4, 6] := by decide
  have hacount : rank [5, 2, 3] < Word.count := by decide
  have hbcount : rank [3, 4] < Word.count := by decide
  obtain ⟨hassoc, hreverse⟩ := matrix_products_associate_and_reverse ha hb hc
  exact ⟨ha, hb, hc, hacount, hbcount, rfl, hassoc.trans rfl, rfl,
    (hreverse hacount hbcount).trans rfl⟩

end ShapeFault.Shape
