import ShapeFault.Shape.Index

/-!
# The shape behind an index

An index with several ellipses or more selectors than axes is refused; every other one is a loop
over the expanded selectors (`Shape.index_eq_ok_iff_runSelectors`, `Shape.index_eq_error_iff`). An
index of one item looks at the first axis only: `Shape.index_singleton` applies the item to it and
keeps all other axes.
-/

namespace ShapeFault.Shape

open Selector (expand takesAxis)

variable {n : Nat} {s : Shape} {sels : List Selector}

/-! ### The loop -/

/-- The number of axes that the selectors of an index leave to an ellipsis. -/
def unselected (s : Shape) (sels : List Selector) : Nat :=
  s.rank - sels.countP takesAxis

/-- The loop of an index with at most one ellipsis and not too many selectors. -/
def runSelectors (s : Shape) (sels : List Selector) : Except ShapeError Selection :=
  applySelectors ⟨[], none⟩ 0 (expand (s.unselected sels) sels) s

theorem index_eq_runSelectors (hellipses : sels.count .ellipsis ≤ 1)
    (htaken : sels.countP takesAxis ≤ s.rank) :
    index s sels = (s.runSelectors sels).map Selection.shape := by
  rw [index, if_neg (Nat.not_lt.mpr hellipses), if_neg (Nat.not_lt.mpr htaken)]
  change (s.runSelectors sels).bind _ = _
  cases s.runSelectors sels <;> rfl

/-- More selectors than axes are refused. -/
theorem index_eq_tooManyIndices (hellipses : sels.count .ellipsis ≤ 1)
    (htaken : s.rank < sels.countP takesAxis) :
    index s sels = .error (.tooManyIndices s.rank (sels.countP takesAxis)) := by
  rw [index, if_neg (Nat.not_lt.mpr hellipses), if_pos htaken]

theorem index_eq_manyEllipses (hellipses : 1 < sels.count .ellipsis) :
    index s sels = .error .manyEllipses := by
  rw [index, if_pos hellipses]

/-- An index is refused at once, or fails as its loop does. -/
theorem index_eq_error_iff {e : ShapeError} : index s sels = .error e ↔
    (1 < sels.count .ellipsis ∧ e = .manyEllipses) ∨
      (sels.count .ellipsis ≤ 1 ∧ s.rank < sels.countP takesAxis ∧
        e = .tooManyIndices s.rank (sels.countP takesAxis)) ∨
      (sels.count .ellipsis ≤ 1 ∧ sels.countP takesAxis ≤ s.rank ∧
        s.runSelectors sels = .error e) := by
  rcases Nat.lt_or_ge 1 (sels.count .ellipsis) with hellipses | hellipses
  · rw [index_eq_manyEllipses hellipses]
    simp [hellipses, Nat.not_le.mpr hellipses, eq_comm]
  · rcases Nat.lt_or_ge s.rank (sels.countP takesAxis) with htaken | htaken
    · rw [index_eq_tooManyIndices hellipses htaken]
      simp [hellipses, Nat.not_lt.mpr hellipses, htaken, Nat.not_le.mpr htaken, eq_comm]
    · rw [index_eq_runSelectors hellipses htaken]
      cases s.runSelectors sels <;>
        simp [Except.map, hellipses, Nat.not_lt.mpr hellipses, htaken, Nat.not_lt.mpr htaken]

/-- An index succeeds if it is not refused at once and its loop comes to an end. -/
theorem index_eq_ok_iff_runSelectors {o : Shape} : index s sels = .ok o ↔
    sels.count .ellipsis ≤ 1 ∧ sels.countP takesAxis ≤ s.rank ∧
      ∃ r, s.runSelectors sels = .ok r ∧ r.shape = o := by
  by_cases hellipses : sels.count .ellipsis ≤ 1
  · by_cases htaken : sels.countP takesAxis ≤ s.rank
    · rw [index_eq_runSelectors hellipses htaken]
      cases s.runSelectors sels <;> simp [Except.map, hellipses, htaken]
    · rw [index_eq_tooManyIndices hellipses (Nat.lt_of_not_le htaken)]
      simp [htaken]
  · rw [index_eq_manyEllipses (Nat.lt_of_not_le hellipses)]
    simp [hellipses]

/-! ### One selector -/

/-- One selector that takes an axis is applied to the first axis. -/
theorem index_singleton {sel : Selector} (hsel : sel.takesAxis = true) :
    index (n :: s) [sel] = (applySelector ⟨[], none⟩ 0 n sel).map fun r =>
      Selection.shape ⟨r.sizes ++ s, r.arrays⟩ := by
  have hellipsis : [sel].count .ellipsis = 0 := by
    cases sel <;> first | rfl | cases hsel
  have hexpand (fill : Nat) : Selector.expand fill [sel] = [sel] := by
    cases sel <;> first | rfl | cases hsel
  have happly : applySelectors ⟨[], none⟩ 0 [sel] (n :: s) =
      (applySelector ⟨[], none⟩ 0 n sel).map fun r => ⟨r.sizes ++ s, r.arrays⟩ := by
    cases sel <;> first | rfl | cases hsel
  have htaken : [sel].countP Selector.takesAxis = 1 := by simp [hsel]
  rw [index, htaken, hellipsis, hexpand, happly]
  have hrank : ¬rank (n :: s) < 1 := by simp [rank]
  rw [if_neg (by decide), if_neg hrank]
  cases applySelector ⟨[], none⟩ 0 n sel <;> rfl

/-- An integer is applied to an axis if it is a position of it. -/
theorem applySelector_int (hn : n < Word.half) (r : Selection) (axis : Nat) (i : Int) :
    applySelector r axis n (.int i) =
      if -n ≤ i ∧ i < n then .ok r else .error (.indexOutOfBounds i axis n) := by
  have hrange : (0 ≤ (if i < 0 then i + (n : Int) else i) ∧
      (if i < 0 then i + (n : Int) else i) < n) ↔ -n ≤ i ∧ i < n := by
    omega
  rw [applySelector, Word.asSigned_of_lt hn, Word.fromFront?_of_nonneg (Int.natCast_nonneg n)]
  change (if _ then _ else _) = _
  simp only [hrange]

/-- A slice makes an axis of as many positions as it selects. -/
theorem applySelector_slice (r : Selection) (axis : Nat) (sl : Slice) :
    applySelector r axis n (.slice sl) = (sl.count n).map r.push := by
  rw [applySelector]
  cases sl.count n <;> rfl

/-- An integer takes the first axis away if it is a position of it. -/
theorem index_int (hn : n < Word.half) (i : Int) : index (n :: s) [.int i] =
    if -n ≤ i ∧ i < n then .ok s else .error (.indexOutOfBounds i 0 n) := by
  rw [index_singleton rfl, applySelector_int hn]
  split <;> rfl

/-- A slice changes the size of the first axis. -/
theorem index_slice (sl : Slice) : index (n :: s) [.slice sl] = (sl.count n).map (· :: s) := by
  rw [index_singleton rfl, applySelector_slice]
  cases sl.count n <;> rfl

end ShapeFault.Shape
