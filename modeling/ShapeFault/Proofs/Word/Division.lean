import ShapeFault.Word

/-!
# Division of words

The quotient of two words that is rounded down, and the remainder that goes with it, are made from
the Euclidean ones. Euclidean division is checked: it is given up for the divisor zero, and for the
one quotient of words that is no word, that of the least word by -1 (`fits_ediv_iff`). The
corrections are not checked, and need no check: where there is something to correct, the divisor is
-2 or less, so the quotient is far from the ends of the range (`fits_ediv_sub_excess`), and the
remainder is brought nearer to zero (`fits_emod_add`).

So both come out as the exact ones (`floorQuotient?_eq`, `floorRemainder?_eq`), the remainder only
where the quotient is a word.
-/

namespace ShapeFault.Word

variable {m n q r : Int}

theorem wrap_of_fits (h : Fits n) : wrap n = n := by
  simp only [Fits, half] at h
  simp only [wrap, count, Int.bmod_def]
  omega

/-! ### Euclidean division -/

theorem quotient?_eq_some_iff : quotient? m n = some q ↔ n ≠ 0 ∧ Fits (m / n) ∧ m / n = q := by
  simp [quotient?, checked?]

theorem remainder?_eq_some_iff : remainder? m n = some r ↔ n ≠ 0 ∧ Fits (m / n) ∧ m % n = r := by
  simp [remainder?, quotient?_eq_some_iff, and_assoc]

theorem quotient?_eq_none (hn : n ≠ 0) (hq : ¬Fits (m / n)) : quotient? m n = none := by
  rw [quotient?, if_neg hn, checked?_eq_none hq]

/-- The Euclidean quotient of two words is a word, except for one. -/
theorem fits_ediv_iff (hm : Fits m) (hn : n ≠ 0) : Fits (m / n) ↔ ¬(m = -half ∧ n = -1) := by
  have habs := Int.natAbs_ediv_le_natAbs m n
  have hdivision := Int.mul_ediv_add_emod m n
  have hnonneg := Int.emod_nonneg m hn
  have hlt := Int.emod_lt m hn
  simp only [Fits, half] at hm ⊢
  constructor
  · rintro ⟨-, hfits⟩ ⟨rfl, rfl⟩
    omega
  · intro hne
    -- no quotient is larger than its dividend, so only `2 ^ 63` has to be excluded
    have hquotient : m / n ≠ 9223372036854775808 := by
      intro hquotient
      rw [hquotient] at hdivision
      omega
    omega

/-- Where the Euclidean quotient is too large by one, the divisor is -2 or less. -/
theorem le_of_emod_ne_zero (hneg : n < 0) (hr : m % n ≠ 0) : n ≤ -2 := by
  have hone : n ≠ -1 := by
    rintro rfl
    exact hr (Int.emod_eq_zero_of_dvd ⟨-m, by omega⟩)
  omega

/-! ### Corrections -/

/-- **The quotient is corrected within the range of words.** -/
theorem fits_ediv_sub_excess (hm : Fits m) (hq : Fits (m / n)) :
    Fits (m / n - excess n (m % n)) := by
  unfold excess
  split
  case isFalse => rwa [Int.sub_zero]
  case isTrue h =>
    obtain ⟨hneg, hr⟩ := h
    have hdivision := Int.mul_ediv_add_emod m n
    have hnonneg := Int.emod_nonneg m (Int.ne_of_lt hneg)
    have hn := le_of_emod_ne_zero hneg hr
    simp only [Fits, half] at hm hq ⊢
    -- the least word times the divisor is more than any word
    have hquotient : m / n ≠ -9223372036854775808 := by
      intro hquotient
      rw [hquotient] at hdivision
      omega
    omega

/-- **The remainder is corrected within the range of words.** -/
theorem fits_emod_add (hn : Fits n) (hneg : n < 0) : Fits (m % n + n) := by
  have hnonneg := Int.emod_nonneg m (Int.ne_of_lt hneg)
  have hlt := Int.emod_lt_of_neg m hneg
  simp only [Fits, half] at hn ⊢
  omega

/-- Where nothing has to be corrected. -/
theorem nonneg_or_dvd_iff : 0 ≤ n ∨ n ∣ m ↔ ¬(n < 0 ∧ m % n ≠ 0) := by
  rw [Int.dvd_iff_emod_eq_zero]
  omega

theorem fdiv_eq_ediv_sub_excess (m n : Int) : m.fdiv n = m / n - excess n (m % n) := by
  simp only [Int.fdiv_eq_ediv, excess, nonneg_or_dvd_iff, ite_not]

theorem fmod_eq_emod_ite (m n : Int) :
    m.fmod n = if n < 0 ∧ m % n ≠ 0 then m % n + n else m % n := by
  simp only [Int.fmod_eq_emod, nonneg_or_dvd_iff, ite_not]
  split
  · rfl
  · exact Int.add_zero _

/-- A remainder lies between zero and the divisor. -/
theorem fmod_between (m : Int) (hn : n ≠ 0) :
    0 ≤ m.fmod n ∧ m.fmod n < n ∨ n < m.fmod n ∧ m.fmod n ≤ 0 := by
  rcases Int.lt_or_gt_of_ne hn with hneg | hpos
  · have hopposite := Int.neg_fmod_neg m n
    have hnonneg := Int.fmod_nonneg_of_pos (-m) (Int.neg_pos_of_neg hneg)
    have hlt := Int.fmod_lt_of_pos (-m) (Int.neg_pos_of_neg hneg)
    omega
  · exact Or.inl ⟨Int.fmod_nonneg_of_pos m hpos, Int.fmod_lt_of_pos m hpos⟩

/-- Rounded down, the quotient is a word if the Euclidean one is. -/
theorem fits_fdiv_iff (hm : Fits m) (hn : n ≠ 0) : Fits (m.fdiv n) ↔ Fits (m / n) := by
  rw [fdiv_eq_ediv_sub_excess]
  refine ⟨fun h => ?_, fits_ediv_sub_excess hm⟩
  rw [fits_ediv_iff hm hn]
  rintro ⟨rfl, rfl⟩
  revert h
  decide

/-- **The quotient rounded down** is the exact one, if that is a word. -/
theorem floorQuotient?_eq (hm : Fits m) (hn : n ≠ 0) :
    floorQuotient? m n = checked? (m.fdiv n) := by
  by_cases hq : Fits (m / n)
  · have hquotient := quotient?_eq_some_iff.mpr ⟨hn, hq, rfl⟩
    have hremainder := remainder?_eq_some_iff.mpr ⟨hn, hq, rfl⟩
    rw [floorQuotient?, hquotient, hremainder, Option.bind_eq_bind, Option.bind_some,
      Option.bind_some, wrap_of_fits (fits_ediv_sub_excess hm hq), ← fdiv_eq_ediv_sub_excess,
      checked?_eq ((fits_fdiv_iff hm hn).mpr hq)]
  · rw [floorQuotient?, quotient?_eq_none hn hq,
      checked?_eq_none (mt (fits_fdiv_iff hm hn).mp hq)]
    rfl

/-- **The remainder of the quotient rounded down** is the exact one, if the quotient is a word. -/
theorem floorRemainder?_eq (hm : Fits m) (hn : Fits n) (hne : n ≠ 0) :
    floorRemainder? m n = if Fits (m.fdiv n) then some (m.fmod n) else none := by
  by_cases hq : Fits (m / n)
  · have hremainder := remainder?_eq_some_iff.mpr ⟨hne, hq, rfl⟩
    rw [floorRemainder?, hremainder, Option.bind_eq_bind, Option.bind_some,
      if_pos ((fits_fdiv_iff hm hne).mpr hq), fmod_eq_emod_ite]
    congr 1
    split
    case isTrue h => exact wrap_of_fits (fits_emod_add hn h.1)
    case isFalse => rfl
  · rw [floorRemainder?, remainder?, quotient?_eq_none hne hq,
      if_neg (mt (fits_fdiv_iff hm hne).mp hq)]
    rfl

end ShapeFault.Word
