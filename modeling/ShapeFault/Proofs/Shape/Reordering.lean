import Mathlib.Data.List.GetD
import ShapeFault.Proofs.Shape.Reshape
import ShapeFault.Shape.Axis

/-!
# Reordered axes

The elements of a tensor are counted axis by axis, so whether there is a count can depend on the
order of the axes: a size of zero in front makes the count zero, while behind sizes that together
are no word it comes too late (`late_zero_is_not_counted`).

Main statement: every order of the axes gives a count, and is reshaped, like every other one exactly
if no size is zero or all sizes other than zero multiply to a word (`element_count_and_axis_order`).
-/

namespace ShapeFault.Shape

variable {s t : Shape}

/-! ### Transposed tensors -/

theorem transpose_perm (s : Shape) : s.transpose.Perm s :=
  s.reverse_perm

theorem swapAxes_perm {i j : Int} (h : swapAxes s i j = .ok t) : t.Perm s := by
  obtain ⟨m, hm, h⟩ := bind_eq_ok_iff.mp h
  obtain ⟨n, hn, h⟩ := bind_eq_ok_iff.mp h
  obtain rfl := Except.ok.inj h
  rw [List.getD_eq_getElem _ _ (lt_of_normalizeAxis hm),
    List.getD_eq_getElem _ _ (lt_of_normalizeAxis hn)]
  exact List.set_set_perm (lt_of_normalizeAxis hm) (lt_of_normalizeAxis hn)

/-! ### The count and the product -/

/-- The count is the product whenever that is a word, and absent otherwise, exactly if no zero comes
too late. -/
theorem elementCount_eq_prod_iff :
    s.elementCount = (if s.prod < Word.count then some s.prod else none) ↔
      0 ∉ s ∨ (s.takeWhile (· ≠ 0)).prod < Word.count := by
  constructor
  · intro h
    by_contra hnot
    obtain ⟨hzero, hlarge⟩ := not_or.mp hnot
    rw [elementCount, checkedProduct_eq, if_neg hlarge,
      List.prod_eq_zero_iff.mpr (not_not.mp hzero), if_pos (by decide)] at h
    cases h
  · rintro (hzero | hsmall)
    · exact checkedProduct_of_zero_notMem hzero
    · have hcount : s.elementCount = some s.prod :=
        checkedProduct_eq_some_iff.mpr ⟨hsmall, rfl⟩
      rw [hcount, if_pos (lt_count_of_checkedProduct hcount)]

/-! ### Counts in another order -/

/-- Without a zero, or where all other sizes together are a word, every order gives the same count.
-/
theorem elementCount_of_perm (hperm : t.Perm s)
    (h : 0 ∉ s ∨ (s.filter (· ≠ 0)).prod < Word.count) : t.elementCount = s.elementCount := by
  rcases h with hzero | hsmall
  · have hzero' : 0 ∉ t := fun hmem => hzero (hperm.mem_iff.mp hmem)
    rw [elementCount, elementCount, checkedProduct_of_zero_notMem hzero,
      checkedProduct_of_zero_notMem hzero', hperm.prod_eq]
  · have hsmall' : (t.filter (· ≠ 0)).prod < Word.count := by
      rwa [(hperm.filter _).prod_eq]
    rw [elementCount, elementCount, checkedProduct_of_filter hsmall,
      checkedProduct_of_filter hsmall', hperm.prod_eq]

/-- A zero in front is counted. -/
theorem elementCount_zero_cons (s : Shape) : elementCount (0 :: s) = some 0 := by
  rw [elementCount, checkedProduct_eq_some_iff, List.takeWhile_cons_of_neg (by decide),
    List.prod_nil, List.prod_cons, Nat.zero_mul]
  exact ⟨by decide, rfl⟩

/-- Zeros behind all other sizes are not counted if those together are no word. -/
theorem elementCount_zeros_behind (h : ¬(s.filter (· ≠ 0)).prod < Word.count) :
    elementCount (s.filter (· ≠ 0) ++ s.filter fun n => !decide (n ≠ 0)) = none := by
  have hzeros : (s.filter fun n => !decide (n ≠ 0)).takeWhile (· ≠ 0) = [] := by
    rw [List.takeWhile_eq_nil_iff]
    intro hpos hfirst
    have hzero := (List.mem_filter.mp (List.get_mem _ ⟨0, hpos⟩)).2
    rw [hfirst] at hzero
    cases hzero
  have hfront : (s.filter (· ≠ 0) ++ s.filter fun n => !decide (n ≠ 0)).takeWhile (· ≠ 0) =
      s.filter (· ≠ 0) := by
    rw [List.takeWhile_append_of_pos fun _ hn => (List.mem_filter.mp hn).2, hzeros,
      List.append_nil]
  rw [elementCount, checkedProduct_eq, hfront, if_neg h]

/-! ### Requests answered in another order -/

/-- The request for one size that is left open is answered by the number of elements. -/
theorem toOption_reshape_flat (s : Shape) :
    (reshape s [-1]).toOption = s.elementCount.map ([·]) := by
  have hflat : (reshape s [-1]).toOption = s.elementCount.bind fun size =>
      (checkedProduct []).bind fun known =>
        if known = 0 ∨ size % known ≠ 0 then none else some [size / known] :=
    toOption_reshape_open s [] []
  rw [hflat]
  cases s.elementCount <;> simp [checkedProduct, Nat.mod_one]

/-- Shapes that are reshaped alike have the same count. -/
theorem elementCount_eq_iff :
    t.elementCount = s.elementCount ↔ ∀ r, (reshape t r).toOption = (reshape s r).toOption := by
  refine ⟨toOption_reshape_congr, fun h => ?_⟩
  have hflat := h [-1]
  rw [toOption_reshape_flat, toOption_reshape_flat] at hflat
  exact Option.map_injective (fun _ _ => List.singleton_inj.mp) hflat

/-- **Reordered axes are reshaped alike** exactly if no size is zero or all other sizes together are
a word. -/
theorem forall_perm_reshape_iff :
    (∀ t, t.Perm s → ∀ r, (reshape t r).toOption = (reshape s r).toOption) ↔
      0 ∉ s ∨ (s.filter (· ≠ 0)).prod < Word.count := by
  simp only [← elementCount_eq_iff]
  constructor
  · intro h
    by_contra hnot
    obtain ⟨hzero, hlarge⟩ := not_or.mp hnot
    -- with a zero in front there is a count, with all of them at the end there is none
    have hfront := h _ (List.perm_cons_erase (not_not.mp hzero)).symm
    have hback := h _ (List.filter_append_perm (· ≠ 0) s)
    rw [elementCount_zero_cons] at hfront
    rw [elementCount_zeros_behind hlarge, ← hfront] at hback
    cases hback
  · intro h t hperm
    exact elementCount_of_perm hperm h

/-- **The number of elements** is the product of all sizes, and there is one exactly if the sizes
before the first zero multiply to a word. So it is the product whenever that is a word, and absent
otherwise, exactly if no size is zero or those before the first zero multiply to a word. Every order
of the axes, as transposing makes them, is reshaped like every other one exactly if no size is zero
or all sizes other than zero multiply to a word. -/
theorem element_count_and_axis_order (s : Shape) :
    s.elementCount =
        (if (s.takeWhile (· ≠ 0)).prod < Word.count then some s.prod else none) ∧
      (s.elementCount = (if s.prod < Word.count then some s.prod else none) ↔
        0 ∉ s ∨ (s.takeWhile (· ≠ 0)).prod < Word.count) ∧
      ((∀ t, t.Perm s → ∀ r, (reshape t r).toOption = (reshape s r).toOption) ↔
        0 ∉ s ∨ (s.filter (· ≠ 0)).prod < Word.count) ∧
      s.transpose.Perm s ∧ ∀ i j t, swapAxes s i j = .ok t → t.Perm s := by
  exact ⟨checkedProduct_eq s, elementCount_eq_prod_iff, forall_perm_reshape_iff, transpose_perm s,
    fun i j t => swapAxes_perm⟩

/-- A shape whose axes can be reordered, although a size is zero, and one whose axes can not. -/
theorem orders_of_large_sizes :
    (∀ r, (reshape [0, 2147483648, 4294967296] r).toOption =
        (reshape [4294967296, 2147483648, 0] r).toOption) ∧
      ¬∀ t, t.Perm [0, 4294967296, 4294967296] → ∀ r, (reshape t r).toOption =
        (reshape [0, 4294967296, 4294967296] r).toOption := by
  obtain ⟨-, -, hsmall, htranspose, -⟩ :=
    element_count_and_axis_order [4294967296, 2147483648, 0]
  obtain ⟨-, -, hlarge, -⟩ := element_count_and_axis_order [0, 4294967296, 4294967296]
  exact ⟨hsmall.mpr (by decide) _ htranspose, fun h => absurd (hlarge.mp h) (by decide)⟩

/-- **A zero behind large sizes comes too late**: the product of these sizes is a word, yet there is
no count, and the shape with its axes reversed is reshaped otherwise. -/
theorem late_zero_is_not_counted :
    ¬(∀ s : Shape, s.elementCount = if s.prod < Word.count then some s.prod else none) ∧
      ¬∀ (s t : Shape) (r : List Int), t.Perm s →
        (reshape t r).toOption = (reshape s r).toOption := by
  refine ⟨fun h => ?_, fun h => ?_⟩
  · exact absurd (h [4294967296, 4294967296, 0]) (by decide)
  · exact absurd (h [4294967296, 4294967296, 0] [0, 4294967296, 4294967296] [0]
      (transpose_perm [4294967296, 4294967296, 0])) (by decide)

end ShapeFault.Shape
