import Mathlib.Algebra.BigOperators.Group.List.Lemmas
import Mathlib.Algebra.BigOperators.Ring.List
import Mathlib.Algebra.GroupWithZero.Nat
import Mathlib.Data.List.TakeWhile
import ShapeFault.Shape.Basic

/-!
# Counts of elements

The sizes of a shape are multiplied from the first axis on, and the count is given up at the first
product that is no word. A size of zero makes all later products zero. So there is a count exactly
if the sizes before the first zero have a product that is a word, and it is the product of all sizes
(`checkedProduct_eq`); whether there is one does not depend on the order of the axes where no size
is zero (`checkedProduct_of_zero_notMem`) or all other sizes together are a word
(`checkedProduct_of_filter`).
-/

namespace ShapeFault

variable {sizes front back : List Nat} {n q : Nat}

/-- The sizes before the first zero multiply to at most what all sizes other than zero do. -/
theorem prod_takeWhile_le (sizes : List Nat) :
    (sizes.takeWhile (· ≠ 0)).prod ≤ (sizes.filter (· ≠ 0)).prod := by
  have hsublist : (sizes.takeWhile (· ≠ 0)).Sublist (sizes.filter (· ≠ 0)) := by
    have hself : (sizes.takeWhile (· ≠ 0)).filter (· ≠ 0) = sizes.takeWhile (· ≠ 0) :=
      List.filter_eq_self.mpr fun _ h => (List.mem_takeWhile_imp h :)
    rw [← hself]
    exact (List.takeWhile_sublist _).filter _
  have hpos : 0 < (sizes.filter (· ≠ 0)).prod := by
    refine Nat.pos_of_ne_zero fun h => ?_
    simpa using List.prod_eq_zero_iff.mp h
  exact Nat.le_of_dvd hpos hsublist.prod_dvd_prod

/-- Multiplying goes on from a word as long as the sizes before the first zero allow. -/
theorem foldlM_product_eq {acc : Nat} (hacc : acc < Word.count) :
    sizes.foldlM (fun acc n => if acc * n < Word.count then some (acc * n) else none) acc =
      if acc * (sizes.takeWhile (· ≠ 0)).prod < Word.count then some (acc * sizes.prod)
      else none := by
  induction sizes generalizing acc with
  | nil => simp [hacc]
  | cons n sizes ih =>
    rw [List.foldlM_cons, List.prod_cons, ← Nat.mul_assoc]
    by_cases hn : n = 0
    · -- the product is zero from here on, however large the sizes behind are
      have hzero : acc * n = 0 := by rw [hn, Nat.mul_zero]
      rw [List.takeWhile_cons_of_neg (by simpa using hn), List.prod_nil, Nat.mul_one, if_pos hacc,
        hzero, if_pos (by decide), Option.bind_eq_bind, Option.bind_some, ih (by decide),
        Nat.zero_mul, if_pos (by decide)]
    · rw [List.takeWhile_cons_of_pos (by simpa using hn), List.prod_cons, ← Nat.mul_assoc]
      by_cases hstep : acc * n < Word.count
      · rw [if_pos hstep]
        exact ih hstep
      · have hpos : 0 < (sizes.takeWhile (· ≠ 0)).prod := by
          refine Nat.pos_of_ne_zero fun h => ?_
          simpa using List.mem_takeWhile_imp (List.prod_eq_zero_iff.mp h)
        have hlarge : ¬acc * n * (sizes.takeWhile (· ≠ 0)).prod < Word.count := fun h =>
          hstep (Nat.lt_of_le_of_lt (Nat.le_mul_of_pos_right _ hpos) h)
        rw [if_neg hstep, if_neg hlarge]
        rfl

/-- **The product of sizes**, if there is one, is that of them all; there is one if the sizes before
the first zero multiply to a word. -/
theorem checkedProduct_eq (sizes : List Nat) :
    checkedProduct sizes =
      if (sizes.takeWhile (· ≠ 0)).prod < Word.count then some sizes.prod else none := by
  rw [checkedProduct, foldlM_product_eq (by decide), Nat.one_mul, Nat.one_mul]

theorem checkedProduct_eq_some_iff :
    checkedProduct sizes = some n ↔
      (sizes.takeWhile (· ≠ 0)).prod < Word.count ∧ sizes.prod = n := by
  rw [checkedProduct_eq, Option.ite_none_right_eq_some, Option.some.injEq]

/-- Sizes without a zero have a product if it is a word. -/
theorem checkedProduct_of_zero_notMem (h : 0 ∉ sizes) :
    checkedProduct sizes = if sizes.prod < Word.count then some sizes.prod else none := by
  have hall : sizes.takeWhile (· ≠ 0) = sizes :=
    List.takeWhile_eq_self_iff.mpr fun n hn => by
      simpa using ne_of_mem_of_not_mem hn h
  rw [checkedProduct_eq, hall]

/-- Sizes have a product if all of them other than zero multiply to a word. -/
theorem checkedProduct_of_filter (h : (sizes.filter (· ≠ 0)).prod < Word.count) :
    checkedProduct sizes = some sizes.prod := by
  rw [checkedProduct_eq, if_pos (Nat.lt_of_le_of_lt (prod_takeWhile_le sizes) h)]

/-- Products are words. -/
theorem lt_count_of_checkedProduct (h : checkedProduct sizes = some n) : n < Word.count := by
  obtain ⟨hword, rfl⟩ := checkedProduct_eq_some_iff.mp h
  by_cases hzero : 0 ∈ sizes
  · rw [List.prod_eq_zero_iff.mpr hzero]
    decide
  · rw [checkedProduct_of_zero_notMem hzero] at h
    by_contra hlarge
    rw [if_neg hlarge] at h
    cases h

/-- One more size, wherever it stands among sizes other than zero, multiplies their product. -/
theorem checkedProduct_insert (h : checkedProduct (front ++ back) = some n) (hn : n ≠ 0)
    (hword : n * q < Word.count) : checkedProduct (front ++ q :: back) = some (n * q) := by
  obtain ⟨-, rfl⟩ := checkedProduct_eq_some_iff.mp h
  have hperm : (front ++ q :: back).Perm (q :: (front ++ back)) := List.perm_middle
  have hzero : 0 ∉ front ++ back := fun hmem => hn (List.prod_eq_zero_iff.mpr hmem)
  have hself : (front ++ back).filter (· ≠ 0) = front ++ back :=
    List.filter_eq_self.mpr fun m hm => by
      simpa using ne_of_mem_of_not_mem hm hzero
  have hfilter : ((front ++ q :: back).filter (· ≠ 0)).prod < Word.count := by
    rw [(hperm.filter _).prod_eq]
    by_cases hq : q = 0
    · rw [List.filter_cons_of_neg (by simpa using hq), hself]
      exact lt_count_of_checkedProduct h
    · rw [List.filter_cons_of_pos (by simpa using hq), hself, List.prod_cons, Nat.mul_comm]
      exact hword
  rw [checkedProduct_of_filter hfilter, hperm.prod_eq, List.prod_cons, Nat.mul_comm]

end ShapeFault
