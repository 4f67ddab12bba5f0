import ShapeFault.Proofs.Shape.WordSlice
import ShapeFault.Proofs.Tensor.ListIndex

/-!
# What a slice of a list selects

A slice of a list selects members from its normalised start on, in steps, and only those that lie
strictly before its normalised stop in the direction of its step (`Slice.Before`).

Main statement: a slice of a list selects exactly these members in this order, as many as it keeps
positions of an axis, and no number on the way leaves the range of words
(`list_slice_selects_before_stop`).
-/

namespace ShapeFault

namespace Slice

/-- The place `p` lies strictly before `limit` in the direction of `step`. -/
def Before (step p limit : Int) : Prop :=
  if 0 < step then p < limit else limit < p

end Slice

/-- **The steps of a walk** are those before its limit. -/
theorem Walk.lt_count_iff {w : Walk} (hstep : w.step ≠ 0) {n : Nat} :
    n < w.count ↔ Slice.Before w.step (w.first + n * w.step) w.limit := by
  have hdistance : Slice.Before w.step (w.first + n * w.step) w.limit ↔
      (n : Int) * w.step.natAbs < w.distance := by
    unfold Slice.Before Walk.distance
    split
    case isTrue hpos =>
      rw [Int.natAbs_of_nonneg (Int.le_of_lt hpos)]
      omega
    case isFalse hneg =>
      rw [Int.ofNat_natAbs_of_nonpos (Int.not_lt.mp hneg), Int.mul_neg]
      omega
  rw [hdistance]
  refine ⟨mul_natAbs_lt_distance, fun hlt => ?_⟩
  have hpos : 0 < w.step.natAbs := Int.natAbs_pos.mpr hstep
  rw [← Int.natCast_mul] at hlt
  rw [count_eq, if_neg (by omega), Nat.lt_succ_iff, Nat.le_div_iff_mul_le hpos]
  omega

namespace Slice

variable {s : Slice} {size : Nat}

/-- A slice selects as many members as it has places before its stop. -/
theorem lt_count_iff (h : s.step ≠ some 0) {n : Nat} :
    n < (s.walk size).count ↔ Before s.stride (s.place size n) (s.normalStop size) :=
  Walk.lt_count_iff (stride_ne_zero_iff.mpr h)

theorem member?_natCast {α : Type} (xs : List α) (p : Nat) : member? xs p = xs[p]? := by
  rw [member?, if_neg (by omega), Int.toNat_natCast]

/-- **The members that are selected** are those at the places of the slice. -/
theorem getElem?_of_select {α : Type} {xs ys : List α} (hlen : xs.length < Word.half)
    (h : s.step ≠ some 0) (hys : s.select xs = .ok ys) {n : Nat}
    (hn : n < (s.walk xs.length).count) :
    ∃ p : Nat, s.place xs.length n = p ∧ p < xs.length ∧ ys[n]? = xs[p]? := by
  obtain ⟨zs, hzs, hmap⟩ := exists_select hlen h
  obtain rfl := Except.ok.inj (hys.symm.trans hzs)
  obtain ⟨hlow, hhigh⟩ := place_bounds h hn
  obtain ⟨p, hp⟩ := Int.eq_ofNat_of_zero_le hlow
  have hposition : (s.walk xs.length).first + n * (s.walk xs.length).step = p := hp
  refine ⟨p, hp, by omega, ?_⟩
  have hat := congrArg (·[n]?) hmap
  simp only [List.getElem?_map, Walk.positions, List.getElem?_range hn, Option.map_some,
    hposition, member?_natCast] at hat
  cases hyn : ys[n]? with
  | none =>
    rw [hyn] at hat
    cases hat
  | some y =>
    rw [hyn] at hat
    exact Option.some.inj hat

end Slice

/-- **What a slice of a list selects**, for all bounds and all steps but zero that words hold: the
members at the places from the normalised start on, in steps, strictly before the normalised stop,
in this order. Their number is the one that is counted for an axis of a tensor, at most that of the
members. Counted in words, the number, the place where the list is entered and each place come out
as they are, and each place is that of a member, so none is left out. -/
theorem list_slice_selects_before_stop {vs : List Value} (hlen : vs.length < Word.half)
    {start stop step : Option Value} {s : Slice} (hstart : IndexValue.IsBound start s.start)
    (hstop : IndexValue.IsBound stop s.stop) (hstep : IndexValue.IsBound step s.step)
    (hfits : s.Fits) (hne : s.step ≠ some 0) :
    ∃ ws, tensorHost (.index (.list vs) [.slice start stop step]) = .ok (.list ws) ∧
      (∀ n : Nat,
        (Slice.Before s.stride (s.place vs.length n) (s.normalStop vs.length) →
          ∃ p : Nat, s.place vs.length n = p ∧ p < vs.length ∧ ws[n]? = vs[p]?) ∧
        (¬ Slice.Before s.stride (s.place vs.length n) (s.normalStop vs.length) →
          ws[n]? = none)) ∧
      s.count vs.length = .ok ws.length ∧ ws.length ≤ vs.length ∧
      (∀ t, tensorHost (.index (.tensor (vs.length :: t)) [.slice start stop step]) =
        .ok (.tensor (ws.length :: t))) ∧
      s.count? vs.length = some ws.length ∧
      s.origin? vs.length s.stride = some (s.normalStart vs.length) ∧
      ∀ n < ws.length, Slice.position? (s.normalStart vs.length) s.stride n =
        some (s.place vs.length n) ∧ (Slice.member? vs (s.place vs.length n)).isSome := by
  obtain ⟨ws, hws, -⟩ := Slice.exists_select hlen hne
  have hcount := Slice.length_of_select hlen hne hws
  have hplaces : ∀ n < (s.walk vs.length).count, ∃ p : Nat, s.place vs.length n = p ∧
      p < vs.length ∧ ws[n]? = vs[p]? := fun n hn => Slice.getElem?_of_select hlen hne hws hn
  refine ⟨ws, ?_, fun n => ⟨fun hbefore => ?_, fun hbehind => ?_⟩, ?_, ?_, fun t => ?_, ?_, ?_,
    fun n hn => ⟨?_, ?_⟩⟩
  · change (Value.list vs).index [.slice start stop step] = .ok (.list ws)
    rw [Value.index_list_slice hstart hstop hstep, hws]
  · exact hplaces n ((Slice.lt_count_iff hne).mpr hbefore)
  · rw [← Slice.lt_count_iff hne, ← hcount] at hbehind
    exact List.getElem?_eq_none (Nat.not_lt.mp hbehind)
  · rw [Slice.count_of_step_ne_zero hlen hne, hcount]
  · rw [hcount]
    exact s.count_le vs.length
  · change (Value.tensor (vs.length :: t)).index [.slice start stop step] = _
    rw [Value.index_tensor_slice hstart hstop hstep, Slice.count_of_step_ne_zero hlen hne, hcount]
  · rw [Slice.count?_eq hlen hfits, hcount]
  · rw [Slice.origin?_eq hlen hfits, Slice.origin_eq]
  · rw [hcount] at hn
    exact Slice.position?_eq hlen hne hn
  · obtain ⟨p, hp, hlt, -⟩ := hplaces n (hcount ▸ hn)
    rw [hp, Slice.member?_natCast, List.getElem?_eq_getElem hlt]
    rfl

/-- Three rows from the last one on to the left, in steps of the least word. -/
theorem list_slice_by_least_word :
    threeRows.length < Word.half ∧
      Slice.Fits ⟨some (-1), none, some (-9223372036854775808)⟩ ∧
      ∃ ws, tensorHost (.index (.list threeRows) [.slice (some (.int (-1))) none
          (some (.int (-9223372036854775808)))]) = .ok (.list ws) ∧
        ws.length = 1 ∧ ws[0]? = threeRows[2]? := by
  have hlen : threeRows.length < Word.half := by decide
  have hfits : Slice.Fits ⟨some (-1), none, some (-9223372036854775808)⟩ := by
    refine ⟨?_, nofun, ?_⟩
    · rintro b ⟨⟩
      decide
    · rintro b ⟨⟩
      decide
  obtain ⟨ws, hws, hmembers, hcount, -⟩ := list_slice_selects_before_stop
    (s := ⟨some (-1), none, some (-9223372036854775808)⟩) hlen (.int (-1)) .absent (.int _) hfits
    (by decide)
  refine ⟨hlen, hfits, ws, hws, (Except.ok.inj hcount).symm, ?_⟩
  obtain ⟨p, hp, -, hat⟩ := (hmembers 0).1 (by unfold Slice.Before; decide)
  obtain rfl : 2 = p := Int.ofNat_inj.mp hp
  exact hat

end ShapeFault
