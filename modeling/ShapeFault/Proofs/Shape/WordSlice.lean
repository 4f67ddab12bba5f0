import ShapeFault.Proofs.Shape.Slice

/-!
# Slices in words

A slice is resolved, counted and gone through with numbers of any size. Here each sum and each
difference on the way is computed in a word, and lost if it does not fit. Nothing is lost: for an
axis that a word can count, and bounds and a step that words hold, the number of positions
(`Slice.count?_eq`), the origin (`Slice.origin?_eq`) and each position (`Slice.position?_eq`) come
out in words.
-/

namespace ShapeFault

namespace Walk

/-- The number of positions of a walk, computed in words. -/
def count? (w : Walk) : Option Nat := do
  let distance ← Word.checked? (if 0 < w.step then w.limit - w.first else w.first - w.limit)
  if distance ≤ 0 then some 0
  else (Word.checked? ((distance.toNat - 1) / w.step.natAbs + 1 : Nat)).map Int.toNat

end Walk

namespace Slice

/-- The bounds and the step of the slice fit in words. -/
def Fits (s : Slice) : Prop :=
  (∀ b ∈ s.start, Word.Fits b) ∧ (∀ b ∈ s.stop, Word.Fits b) ∧ ∀ b ∈ s.step, Word.Fits b

/-- A bound counted from the front in a word, and moved into the range from `low` to `high`. -/
def clamp? (size low high bound : Int) : Option Int := do
  let bound ← if bound < 0 then Word.checked? (bound + size) else some bound
  some (max low (min high bound))

/-- The walk of a slice whose step is not zero, computed in words. -/
def walk? (s : Slice) (size : Nat) : Option Walk := do
  let step := s.step.getD 1
  let size ← Word.checked? size
  if 0 < step then
    let first ← s.start.elim (some 0) (clamp? size 0 size)
    let limit ← s.stop.elim (some size) (clamp? size 0 size)
    some ⟨first, limit, step⟩
  else
    let last ← Word.checked? (size - 1)
    let first ← s.start.elim (some last) (clamp? size (-1) last)
    let limit ← s.stop.elim (some (-1)) (clamp? size (-1) last)
    some ⟨first, limit, step⟩

/-- The number of positions that a slice selects, computed in words. -/
def count? (s : Slice) (size : Nat) : Option Nat := do
  let w ← s.walk? size
  w.count?

/-- The last place that a slice of a list can start from, computed in a word. -/
def last? (size step : Int) : Option Int :=
  if 0 < step then some size else Word.checked? (size - 1)

/-- The position that a slice of a list starts from, computed in words. -/
def origin? (s : Slice) (size : Nat) (step : Int) : Option Int := do
  let size ← Word.checked? size
  let last ← last? size step
  match s.start with
  | some bound =>
    if bound < 0 then
      (Word.checked? (bound + size)).map fun bound => max bound (if 0 < step then 0 else -1)
    else some (min bound last)
  | none => some (if 0 < step then 0 else last)

variable {s : Slice} {size : Nat}

/-- A bound that is present or stands for an end of the range. -/
theorem elim_clamp?_eq (hsize : size < Word.half) {bound : Option Int}
    (hbound : ∀ b ∈ bound, Word.Fits b) (absent : Int) :
    bound.elim (some absent) (clamp? size s.least (s.greatest size)) =
      some (bound.elim absent (s.normal size)) := by
  cases bound with
  | none => rfl
  | some b =>
    have hfits := hbound b rfl
    simp only [Option.elim_some, clamp?, normal]
    split
    · rw [Word.checked?_eq (by unfold Word.Fits at *; omega)]
      rfl
    · rfl

theorem walk?_eq (hsize : size < Word.half) (hs : s.Fits) : s.walk? size = some (s.walk size) := by
  obtain ⟨hstart, hstop, -⟩ := hs
  have hlast : Word.Fits (size - 1) := by
    unfold Word.Fits
    omega
  have hstart' (absent : Int) := s.elim_clamp?_eq hsize hstart absent
  have hstop' (absent : Int) := s.elim_clamp?_eq hsize hstop absent
  simp only [walk?, Word.checked?_eq (Word.fits_of_lt hsize), Option.bind_eq_bind,
    Option.bind_some, Word.checked?_eq hlast]
  change (if 0 < s.stride then _ else _) = _
  by_cases hpos : 0 < s.stride
  · obtain ⟨hleast, hgreatest, hwalk⟩ := walk_of_pos hpos size
    rw [hleast, hgreatest] at hstart' hstop'
    rw [if_pos hpos, hstart', hstop', hwalk]
    rfl
  · obtain ⟨hleast, hgreatest, hwalk⟩ := walk_of_not_pos hpos size
    rw [hleast, hgreatest] at hstart' hstop'
    rw [if_neg hpos, hstart', hstop', hwalk]
    rfl

/-- There are `size + 1` places from the least to the greatest. -/
theorem greatest_eq (s : Slice) (size : Nat) : s.greatest size = s.least + size := by
  unfold greatest least
  split <;> omega

/-- A walk goes no further than its places allow, in one direction or the other. -/
theorem distance_bounds (s : Slice) (size : Nat) :
    -size ≤ (s.walk size).distance ∧ (s.walk size).distance ≤ size := by
  have hbounds := s.walk_bounds size
  have hgreatest := s.greatest_eq size
  unfold Walk.distance
  split <;> omega

/-- A slice selects at most all positions of an axis. -/
theorem count_le (s : Slice) (size : Nat) : (s.walk size).count ≤ size := by
  have hdistance := (s.distance_bounds size).2
  have hcount : (s.walk size).count ≤ (s.walk size).distance.toNat := by
    rw [Walk.count_eq]
    have hdiv := Nat.div_le_self ((s.walk size).distance.toNat - 1) (s.walk size).step.natAbs
    split <;> omega
  omega

/-- **Counting in words.** The number of positions that a slice selects is computed without leaving
the range of words. -/
theorem count?_eq (hsize : size < Word.half) (hs : s.Fits) :
    s.count? size = some (s.walk size).count := by
  have hbounds := s.distance_bounds size
  have hle := s.count_le size
  have hdistance : Word.Fits (s.walk size).distance := by
    unfold Word.Fits
    omega
  have hcount := (s.walk size).count_eq
  rw [count?, walk?_eq hsize hs]
  change (do
    let distance ← Word.checked? (s.walk size).distance
    if distance ≤ 0 then some 0
    else (Word.checked?
      ((distance.toNat - 1) / (s.walk size).step.natAbs + 1 : Nat)).map Int.toNat) = _
  rw [Word.checked?_eq hdistance]
  by_cases hempty : (s.walk size).distance ≤ 0
  · rw [hcount, if_pos hempty]
    exact if_pos hempty
  · rw [if_neg hempty] at hcount
    have hfits : Word.Fits (s.walk size).count :=
      Word.fits_of_lt (Nat.lt_of_le_of_lt hle hsize)
    rw [hcount] at hfits ⊢
    refine (if_neg hempty).trans ?_
    rw [Word.checked?_eq hfits, Option.map_some, Int.toNat_natCast]

/-- **The origin in words.** The position that a slice of a list starts from is computed without
leaving the range of words. -/
theorem origin?_eq (hsize : size < Word.half) (hs : s.Fits) (step : Int) :
    s.origin? size step = some (s.origin size step) := by
  have hlast : last? size step = some (if 0 < step then (size : Int) else size - 1) := by
    unfold last?
    split
    · rfl
    · exact Word.checked?_eq (by unfold Word.Fits; omega)
  simp only [origin?, origin, Word.checked?_eq (Word.fits_of_lt hsize), Option.bind_eq_bind,
    Option.bind_some, hlast]
  cases hstart : s.start with
  | none =>
    simp only
    split <;> rfl
  | some b =>
    simp only
    split
    case isTrue hneg =>
      have hfits := hs.1 b hstart
      rw [Word.checked?_eq (by unfold Word.Fits at *; omega), Option.map_some]
    case isFalse => rfl

end Slice

end ShapeFault
