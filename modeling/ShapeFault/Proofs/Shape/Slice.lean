import Mathlib.Data.List.TakeWhile
import ShapeFault.Shape.Slice

/-!
# The walk of a slice

The bounds of a slice are normalised: a negative bound is counted from the end, a bound beyond an
end is moved to it, and an absent bound stands for an end (`Slice.normalStart`, `Slice.normalStop`).
Along an axis that a word with a sign counts, the slice is resolved to the walk from the one to the
other (`Slice.resolve_of_step_ne_zero`).

A slice of an axis is counted by its walk, and a slice of a list is gone through position by
position, from an origin that is computed on its own. All positions of the walk lie within the axis
(`Slice.place_bounds`), the list is gone through from the first of them on (`Slice.origin_eq`), and
no position leaves the range of words. So what a slice selects from a list are the members at the
positions of its walk, one for each (`Slice.exists_select`).
-/

namespace ShapeFault

namespace Walk

variable {w : Walk} {n : Nat}

/-- The positions of a walk, in their order. -/
def positions (w : Walk) : List Int :=
  (List.range w.count).map fun n : Nat => w.first + n * w.step

theorem length_positions (w : Walk) : w.positions.length = w.count := by
  rw [positions, List.length_map, List.length_range]

/-- How far a walk may go in its direction. -/
def distance (w : Walk) : Int :=
  if 0 < w.step then w.limit - w.first else w.first - w.limit

theorem count_eq (w : Walk) : w.count =
    if w.distance ≤ 0 then 0 else (w.distance.toNat - 1) / w.step.natAbs + 1 :=
  rfl

/-- The steps of a walk stay within its distance. -/
theorem mul_natAbs_lt_distance (hn : n < w.count) : (n : Int) * w.step.natAbs < w.distance := by
  rw [count_eq] at hn
  split at hn
  · cases hn
  · have hle : n * w.step.natAbs ≤ w.distance.toNat - 1 :=
      (Nat.mul_le_mul_right _ (Nat.le_of_lt_succ hn)).trans (Nat.div_mul_le_self _ _)
    rw [← Int.natCast_mul]
    omega

/-- A walk in steps of one meets every position up to its limit. -/
theorem count_of_step_one (first limit : Int) :
    (Walk.mk first limit 1).count = (limit - first).toNat := by
  have hdistance : (Walk.mk first limit 1).distance = limit - first := if_pos Int.one_pos
  rw [count_eq, hdistance, Int.natAbs_one, Nat.div_one]
  split <;> omega

end Walk

namespace Slice

/-! ### Normalised bounds -/

/-- The step of a slice, which is one if it is absent. -/
def stride (s : Slice) : Int :=
  s.step.getD 1

/-- The least place of a normalised bound. -/
def least (s : Slice) : Int :=
  if 0 < s.stride then 0 else -1

/-- The greatest place of a normalised bound. -/
def greatest (s : Slice) (size : Nat) : Int :=
  if 0 < s.stride then size else size - 1

/-- A bound counted from the front and moved to between the least and the greatest place. -/
def normal (s : Slice) (size : Nat) (bound : Int) : Int :=
  max s.least (min (s.greatest size) (if bound < 0 then bound + size else bound))

/-- Where the slice starts; an absent start stands for the end that lies behind. -/
def normalStart (s : Slice) (size : Nat) : Int :=
  match s.start with
  | some bound => s.normal size bound
  | none => if 0 < s.stride then s.least else s.greatest size

/-- Where the slice stops; an absent stop stands for the end that lies ahead. -/
def normalStop (s : Slice) (size : Nat) : Int :=
  match s.stop with
  | some bound => s.normal size bound
  | none => if 0 < s.stride then s.greatest size else s.least

/-- The walk from where the slice starts to where it stops. -/
def walk (s : Slice) (size : Nat) : Walk :=
  ⟨s.normalStart size, s.normalStop size, s.stride⟩

variable {s : Slice} {size : Nat}

theorem stride_ne_zero_iff : s.stride ≠ 0 ↔ s.step ≠ some 0 := by
  unfold stride
  cases s.step <;> simp

theorem least_le_greatest (s : Slice) (size : Nat) : s.least ≤ s.greatest size := by
  unfold least greatest
  split <;> omega

theorem normal_bounds (bound : Int) :
    s.least ≤ s.normal size bound ∧ s.normal size bound ≤ s.greatest size := by
  have hrange := s.least_le_greatest size
  unfold normal
  omega

/-- Both ends of the walk lie between the least and the greatest place. -/
theorem walk_bounds (s : Slice) (size : Nat) :
    (s.least ≤ (s.walk size).first ∧ (s.walk size).first ≤ s.greatest size) ∧
      s.least ≤ (s.walk size).limit ∧ (s.walk size).limit ≤ s.greatest size := by
  have hrange := s.least_le_greatest size
  constructor
  · change _ ≤ s.normalStart size ∧ s.normalStart size ≤ _
    unfold normalStart
    split
    · exact normal_bounds _
    · split <;> omega
  · change _ ≤ s.normalStop size ∧ s.normalStop size ≤ _
    unfold normalStop
    split
    · exact normal_bounds _
    · split <;> omega

/-! ### The walk of a slice -/

/-- A walk to the right stays between 0 and the size of the axis. -/
theorem walk_of_pos (h : 0 < s.stride) (size : Nat) :
    s.least = 0 ∧ s.greatest size = size ∧ s.walk size =
      ⟨s.start.elim 0 (s.normal size), s.stop.elim size (s.normal size), s.stride⟩ := by
  have hleast : s.least = 0 := if_pos h
  have hgreatest : s.greatest size = size := if_pos h
  refine ⟨hleast, hgreatest, ?_⟩
  rw [walk, normalStart, normalStop, if_pos h, if_pos h, hleast, hgreatest]
  cases s.start <;> cases s.stop <;> rfl

/-- A walk to the left stays one place in front of that. -/
theorem walk_of_not_pos (h : ¬0 < s.stride) (size : Nat) :
    s.least = -1 ∧ s.greatest size = size - 1 ∧ s.walk size =
      ⟨s.start.elim (size - 1) (s.normal size), s.stop.elim (-1) (s.normal size), s.stride⟩ := by
  have hleast : s.least = -1 := if_neg h
  have hgreatest : s.greatest size = size - 1 := if_neg h
  refine ⟨hleast, hgreatest, ?_⟩
  rw [walk, normalStart, normalStop, if_neg h, if_neg h, hleast, hgreatest]
  cases s.start <;> cases s.stop <;> rfl

/-- In a range that is not empty bounds are just moved. -/
theorem clampOr_least_greatest (s : Slice) (size : Nat) (bound : Option Int) (absent : Int) :
    clampOr size s.least (s.greatest size) absent bound =
      .ok (bound.elim absent (s.normal size)) := by
  cases bound with
  | none => rfl
  | some b =>
    rw [clampOr, clamp, Word.fromFront?_of_nonneg (Int.natCast_nonneg size)]
    exact if_pos (s.least_le_greatest size)

/-- **A slice is resolved to its walk**, along an axis that a word with a sign counts. -/
theorem resolve_of_step_ne_zero (hsize : size < Word.half) (h : s.step ≠ some 0) :
    s.resolve size = .ok (s.walk size) := by
  have hstride : s.stride ≠ 0 := stride_ne_zero_iff.mpr h
  have hclamp (bound : Option Int) (absent : Int) :=
    s.clampOr_least_greatest size bound absent
  rw [resolve, Word.asSigned_of_lt hsize]
  change (if s.stride = 0 then _ else if 0 < s.stride then _ else _) = _
  rw [if_neg hstride]
  by_cases hpos : 0 < s.stride
  · obtain ⟨hleast, hgreatest, hwalk⟩ := walk_of_pos hpos size
    rw [hleast, hgreatest] at hclamp
    rw [if_pos hpos, hclamp, hclamp, hwalk]
    rfl
  · obtain ⟨hleast, hgreatest, hwalk⟩ := walk_of_not_pos hpos size
    have hlast : Word.Fits (size - 1) := by
      unfold Word.Fits
      omega
    rw [hleast, hgreatest] at hclamp
    rw [if_neg hpos, Word.checked?_eq hlast]
    change (do
      let first ← clampOr size (-1) (size - 1) (size - 1) s.start
      let limit ← clampOr size (-1) (size - 1) (-1) s.stop
      Except.ok (Walk.mk first limit s.stride)) = _
    rw [hclamp, hclamp, hwalk]
    rfl

theorem count_of_step_eq_zero (h : s.step = some 0) (size : Nat) :
    s.count size = .error .zeroStep := by
  rw [count, resolve, h]
  rfl

theorem count_of_step_ne_zero (hsize : size < Word.half) (h : s.step ≠ some 0) :
    s.count size = .ok (s.walk size).count := by
  rw [count, resolve_of_step_ne_zero hsize h]
  rfl

/-- A list is gone through from where the walk starts. -/
theorem origin_eq (s : Slice) (size : Nat) : s.origin size s.stride = s.normalStart size := by
  unfold origin normalStart normal least greatest
  by_cases hpos : 0 < s.stride
  · simp only [if_pos hpos]
    cases s.start with
    | none => rfl
    | some b =>
      simp only
      omega
  · simp only [if_neg hpos]
    cases s.start with
    | none => rfl
    | some b =>
      simp only
      omega

/-! ### Positions -/

/-- The walk of a slice goes right from a position that is not negative to the end of the axis at
most, or left from before its end to the place before its first position at most. -/
theorem walk_cases (h : s.step ≠ some 0) :
    (0 < (s.walk size).step ∧ 0 ≤ (s.walk size).first ∧ (s.walk size).limit ≤ size) ∨
      ((s.walk size).step < 0 ∧ -1 ≤ (s.walk size).limit ∧ (s.walk size).first < size) := by
  have hstride : s.stride ≠ 0 := stride_ne_zero_iff.mpr h
  have hbounds := s.walk_bounds size
  have hstep : (s.walk size).step = s.stride := rfl
  unfold least greatest at hbounds
  rw [hstep]
  by_cases hpos : 0 < s.stride
  · rw [if_pos hpos, if_pos hpos] at hbounds
    omega
  · rw [if_neg hpos, if_neg hpos] at hbounds
    omega

/-- The place `n` steps behind the start. -/
def place (s : Slice) (size n : Nat) : Int :=
  s.normalStart size + n * s.stride

/-- **All positions of the walk of a slice are positions of the axis.** -/
theorem place_bounds (h : s.step ≠ some 0) {n : Nat} (hn : n < (s.walk size).count) :
    0 ≤ s.place size n ∧ s.place size n < size := by
  have hlt := Walk.mul_natAbs_lt_distance hn
  have hn' : (0 : Int) ≤ n := Int.natCast_nonneg n
  have hplace : s.place size n = (s.walk size).first + n * (s.walk size).step := rfl
  unfold Walk.distance at hlt
  rw [hplace]
  -- the products are not linear, so their signs and bounds are settled before `omega`
  rcases walk_cases h with ⟨hstep, hfirst, hlimit⟩ | ⟨hstep, hlimit, hfirst⟩
  · have hstep' := Int.le_of_lt hstep
    have hforward := Int.mul_nonneg hn' hstep'
    rw [if_pos hstep, Int.natAbs_of_nonneg hstep'] at hlt
    omega
  · have hstep' := Int.le_of_lt hstep
    have hbackward := Int.mul_nonpos_of_nonneg_of_nonpos hn' hstep'
    rw [if_neg (Int.not_lt.mpr hstep'), Int.ofNat_natAbs_of_nonpos hstep', Int.mul_neg] at hlt
    omega

/-- The positions of a walk are computed without leaving the range of words. -/
theorem position?_eq (hsize : size < Word.half) (h : s.step ≠ some 0) {n : Nat}
    (hn : n < (s.walk size).count) :
    position? (s.normalStart size) s.stride n = some (s.place size n) := by
  -- the offset is a difference of two positions of the axis
  have hposition := place_bounds h hn
  have horigin := place_bounds h (n.zero_le.trans_lt hn)
  unfold place at hposition horigin ⊢
  have hoffset : Word.Fits (n * s.stride) := by
    unfold Word.Fits
    omega
  have hfits : Word.Fits (s.normalStart size + n * s.stride) := by
    unfold Word.Fits
    omega
  rw [position?, Word.checked?_eq hoffset]
  exact if_pos hfits

/-! ### Lists -/

theorem select_of_step_eq_zero {α : Type} (h : s.step = some 0) (xs : List α) :
    s.select xs = .error .zeroStep := by
  rw [select, count_of_step_eq_zero h]
  rfl

theorem member?_eq_none {α : Type} {xs : List α} {p : Int} (h : p < 0 ∨ xs.length ≤ p) :
    member? xs p = none := by
  rw [member?]
  split
  · rfl
  · exact List.getElem?_eq_none (by omega)

theorem exists_member? {α : Type} {xs : List α} {p : Int} (hp : 0 ≤ p) (hlt : p < xs.length) :
    ∃ x, member? xs p = some x := by
  have hp' : p.toNat < xs.length := by omega
  refine ⟨xs[p.toNat], ?_⟩
  rw [member?, if_neg (Int.not_lt.mpr hp), List.getElem?_eq_getElem hp']

theorem mem_of_member? {α : Type} {xs : List α} {p : Int} {x : α} (h : member? xs p = some x) :
    x ∈ xs := by
  unfold member? at h
  split at h
  · cases h
  · exact List.mem_of_getElem? h

/-- **What a slice selects** from a list are the members at the positions of its walk. -/
theorem exists_select {α : Type} {xs : List α} (hlen : xs.length < Word.half)
    (h : s.step ≠ some 0) : ∃ ys, s.select xs = .ok ys ∧
      ys.map some = (s.walk xs.length).positions.map (member? xs) := by
  have hpositions : (List.range (s.walk xs.length).count).map
      (position? (s.normalStart xs.length) s.stride) =
        (s.walk xs.length).positions.map some := by
    rw [Walk.positions, List.map_map]
    exact List.map_congr_left fun n hn => position?_eq hlen h (List.mem_range.mp hn)
  have hselect : s.select xs = .ok ((s.walk xs.length).positions.filterMap (member? xs)) := by
    have hall : ((s.walk xs.length).positions.map some).takeWhile Option.isSome =
        (s.walk xs.length).positions.map some :=
      List.takeWhile_eq_self_iff.mpr (List.forall_mem_map.mpr fun _ _ => rfl)
    rw [select, count_of_step_ne_zero hlen h]
    change Except.ok (List.filterMap _ (List.takeWhile _
      (List.map (position? (s.origin xs.length s.stride) s.stride) _))) = _
    rw [origin_eq, hpositions, hall, List.filterMap_map]
    rfl
  -- no position is left out: each of them is that of a member
  refine ⟨_, hselect, ?_⟩
  rw [List.map_filterMap_some_eq_filter_map_isSome, List.filter_eq_self]
  intro x hx
  obtain ⟨p, hp, rfl⟩ := List.mem_map.mp hx
  obtain ⟨n, hn, rfl⟩ := List.mem_map.mp hp
  obtain ⟨hlow, hhigh⟩ := place_bounds h (List.mem_range.mp hn)
  obtain ⟨x, hx⟩ := exists_member? hlow hhigh
  change (member? xs (s.place xs.length n)).isSome
  rw [hx]
  rfl

/-- As many members are selected from a list as positions from an axis. -/
theorem length_of_select {α : Type} {xs ys : List α} (hlen : xs.length < Word.half)
    (h : s.step ≠ some 0) (hys : s.select xs = .ok ys) :
    ys.length = (s.walk xs.length).count := by
  obtain ⟨zs, hzs, hmap⟩ := exists_select hlen h
  obtain rfl := Except.ok.inj (hys.symm.trans hzs)
  rw [← Walk.length_positions, ← List.length_map some, hmap, List.length_map]

end Slice

end ShapeFault
