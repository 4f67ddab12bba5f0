import Mathlib.Algebra.Order.Ring.Int
import Mathlib.Algebra.Ring.Commute
import ShapeFault.Proofs.Word.Division
import ShapeFault.Tensor.Host

/-!
# Arithmetic on integers

The integers of values are words, and truth values count as 0 and 1 (`Value.CountsAs`). An operation
has an exact result, which is a number of any size; it is given as an integer if it fits in a word,
and a float is given otherwise (`GivesExact`).

Sums, differences, products, opposites and quotients rounded down are given so, and no step of a
quotient or a remainder that is not checked leaves the range of words
(`integer_arithmetic_is_exact_if_it_fits`).

Remainders and powers are not quite (`integers_of_remainders_and_powers`). A remainder is given up
with its quotient, so the least word has no remainder for -1, though that is zero. Exponents are
given up from `2 ^ 32` on, so the powers of -1, 0 and 1 that do not change any more become floats.
-/

namespace ShapeFault

/-- The integer that a value counts as in arithmetic. -/
inductive Value.CountsAs : Value → Int → Prop where
  | int (n : Int) : CountsAs (.int n) n
  | bool (b : Bool) : CountsAs (.bool b) b.toInt

/-- What is given for the exact result `n`: the integer if it fits in a word, and otherwise some
float. -/
inductive GivesExact : Except HostError Value → Int → Prop where
  | int {n : Int} (hn : Word.Fits n) : GivesExact (.ok (.int n)) n
  | float {n : Int} (hn : ¬Word.Fits n) (x : Float) : GivesExact (.ok (.float x)) n

namespace GivesExact

variable {result : Except HostError Value} {n q : Int}

theorem checked (n : Int) (x : Float) :
    GivesExact (.ok (Number.exactOr (Word.checked? n) x)) n := by
  by_cases hn : Word.Fits n
  · rw [Word.checked?_eq hn]
    exact .int hn
  · rw [Word.checked?_eq_none hn]
    exact .float hn x

theorem eq_ok (h : GivesExact result n) (hn : Word.Fits n) : result = .ok (.int n) := by
  cases h with
  | int => rfl
  | float hlarge => exact absurd hn hlarge

theorem exists_float (h : GivesExact result n) (hn : ¬Word.Fits n) :
    ∃ x, result = .ok (.float x) := by
  cases h with
  | int hfits => exact absurd hfits hn
  | float _ x => exact ⟨x, rfl⟩

/-- An integer that is given is the exact result. -/
theorem eq_of_ok (h : GivesExact result n) (hq : result = .ok (.int q)) : n = q := by
  cases h with
  | int => exact Value.int.inj (Except.ok.inj hq)
  | float => cases hq

end GivesExact

/-! ### Powers -/

namespace Number

variable {n : Int}

/-- The powers of -1, 0 and 1 repeat with period two, but for the power zero. -/
theorem pow_min_eq (hn : n.natAbs ≤ 1) (k : Nat) : n ^ min k (2 - k % 2) = n ^ k := by
  obtain rfl | rfl | rfl : n = -1 ∨ n = 0 ∨ n = 1 := by omega
  · have hparity : min k (2 - k % 2) % 2 = k % 2 := by omega
    rw [neg_one_pow_eq_pow_mod_two, hparity, ← neg_one_pow_eq_pow_mod_two]
  · cases k with
    | zero => rfl
    | succ k => rw [zero_pow (by omega), zero_pow (by omega)]
  · rw [one_pow, one_pow]

theorem fits_pow_of_natAbs_le_one (hn : n.natAbs ≤ 1) (k : Nat) : Word.Fits (n ^ k) := by
  have hle : (n ^ k).natAbs ≤ 1 ^ k := by
    rw [Int.natAbs_pow]
    exact Nat.pow_le_pow_left hn k
  rw [one_pow] at hle
  simp only [Word.Fits, Word.half]
  omega

/-- Other bases have no power of an exponent from 64 on that fits. -/
theorem not_fits_pow (hn : ¬n.natAbs ≤ 1) {k : Nat} (hk : 64 ≤ k) : ¬Word.Fits (n ^ k) := by
  have hlarge : 2 ^ 64 ≤ (n ^ k).natAbs := by
    rw [Int.natAbs_pow]
    calc 2 ^ 64 ≤ 2 ^ k := Nat.pow_le_pow_right (by decide) hk
      _ ≤ n.natAbs ^ k := Nat.pow_le_pow_left (by omega) k
  simp only [Word.Fits, Word.half]
  omega

/-- **Powers** with an exponent below `2 ^ 32` are checked. -/
theorem intPower?_eq {k : Nat} (hk : k < 4294967296) : intPower? n k = Word.checked? (n ^ k) := by
  have hrange : (0 : Int) ≤ k ∧ (k : Int) < 4294967296 := by omega
  rw [intPower?, if_pos hrange, Int.toNat_natCast]
  by_cases hn : n.natAbs ≤ 1
  · rw [if_pos hn]
    change some (n ^ min k (2 - k % 2)) = _
    rw [pow_min_eq hn, Word.checked?_eq (fits_pow_of_natAbs_le_one hn k)]
  · rw [if_neg hn]
    change (if (k : Int) < 64 ∧ Word.Fits (n ^ k) then some (n ^ k) else none) = _
    by_cases hsmall : k < 64
    · simp only [Word.checked?, show (k : Int) < 64 by omega, true_and]
    · rw [if_neg (by omega), Word.checked?_eq_none (not_fits_pow hn (by omega))]

theorem intPower?_eq_none {k : Int} (hk : 4294967296 ≤ k) : intPower? n k = none := by
  rw [intPower?, if_neg (by omega)]

end Number

/-! ### Operations on values -/

namespace Value

variable {v w : Value} {l r : Int}

theorem CountsAs.ofValue? (h : v.CountsAs l) : Number.ofValue? v = some (.int l) := by
  cases h with
  | int n => rfl
  | bool b => cases b <;> rfl

/-- An arithmetic operator on what counts as integers. -/
theorem CountsAs.binary_eq {op : BinaryOp} {a : ArithmeticOp} (ha : op.arithmetic? = some a)
    (hv : v.CountsAs l) (hw : w.CountsAs r) :
    tensorHost (.binary op v w) = (Number.int l).arithmetic a (.int r) := by
  have hcombine : tensorHost (.binary op v w) = combine op v w := by
    cases op <;> cases ha <;> cases hv <;> cases hw <;> rfl
  rw [hcombine, combine, ha, hv.ofValue?, hw.ofValue?]
  · rintro s t - rfl -
    cases hv
  · rintro vs ws - rfl -
    cases hv

theorem CountsAs.unary_eq (hv : v.CountsAs l) :
    tensorHost (.unary .neg v) = .ok (Number.int l).negate := by
  cases hv with
  | int => rfl
  | bool b => cases b <;> rfl

end Value

namespace Number

variable {a : ArithmeticOp} {l r : Int}

/-- Quotients and remainders fail for the divisor zero, and no other operation fails. -/
theorem arithmetic_int_eq (a : ArithmeticOp) (l r : Int) : (int l).arithmetic a (int r) =
    if (a = .div ∨ a = .floorDiv ∨ a = .mod) ∧ r = 0 then .error .divisionByZero
    else .ok (intArithmetic a l r) := by
  simp [arithmetic, isZero]

theorem arithmetic_int_eq_error_iff (ha : a = .div ∨ a = .floorDiv ∨ a = .mod) {e : HostError} :
    (int l).arithmetic a (int r) = .error e ↔ e = .divisionByZero ∧ r = 0 := by
  rw [arithmetic_int_eq]
  by_cases hr : r = 0
  · rw [if_pos ⟨ha, hr⟩]
    simp [hr, eq_comm]
  · rw [if_neg fun h => hr h.2]
    simp [hr]

end Number

namespace Value.CountsAs

variable {v w : Value} {l r : Int}

theorem binary_eq_ok {op : BinaryOp} {a : ArithmeticOp} (ha : op.arithmetic? = some a)
    (hv : v.CountsAs l) (hw : w.CountsAs r)
    (hdefined : ¬((a = .div ∨ a = .floorDiv ∨ a = .mod) ∧ r = 0)) :
    tensorHost (.binary op v w) = .ok (Number.intArithmetic a l r) := by
  rw [hv.binary_eq ha hw, Number.arithmetic_int_eq, if_neg hdefined]

/-- An operation whose exact result is checked. -/
theorem binary_givesExact {op : BinaryOp} {a : ArithmeticOp} (ha : op.arithmetic? = some a)
    (hv : v.CountsAs l) (hw : w.CountsAs r)
    (hdefined : ¬((a = .div ∨ a = .floorDiv ∨ a = .mod) ∧ r = 0)) {n : Int}
    (hchecked : Number.intArithmetic a l r = Number.exactOr (Word.checked? n)
      (Number.floatArithmetic a (Float.ofInt l) (Float.ofInt r))) :
    GivesExact (tensorHost (.binary op v w)) n := by
  rw [hv.binary_eq_ok ha hw hdefined, hchecked]
  exact .checked _ _

theorem neg (hv : v.CountsAs l) : GivesExact (tensorHost (.unary .neg v)) (-l) := by
  rw [hv.unary_eq]
  exact .checked _ _

theorem floorDiv (hv : v.CountsAs l) (hw : w.CountsAs r) (hl : Word.Fits l) (hr : r ≠ 0) :
    GivesExact (tensorHost (.binary .floorDiv v w)) (l.fdiv r) := by
  refine hv.binary_givesExact rfl hw (fun h => hr h.2) ?_
  rw [Number.intArithmetic, Word.floorQuotient?_eq hl hr]

/-- A remainder is given where the quotient fits in a word. -/
theorem mod_eq (hv : v.CountsAs l) (hw : w.CountsAs r) (hl : Word.Fits l) (hr : Word.Fits r)
    (hne : r ≠ 0) : ∃ x, tensorHost (.binary .mod v w) =
      .ok (if Word.Fits (l.fdiv r) then .int (l.fmod r) else .float x) := by
  refine ⟨Number.floatArithmetic .mod (Float.ofInt l) (Float.ofInt r), ?_⟩
  rw [hv.binary_eq_ok rfl hw fun h => hne h.2, Number.intArithmetic,
    Word.floorRemainder?_eq hl hr hne]
  split <;> rfl

theorem mod (hv : v.CountsAs l) (hw : w.CountsAs r) (hl : Word.Fits l) (hr : Word.Fits r)
    (hne : r ≠ 0) (hq : Word.Fits (l.fdiv r)) :
    tensorHost (.binary .mod v w) = .ok (.int (l.fmod r)) := by
  obtain ⟨x, hx⟩ := hv.mod_eq hw hl hr hne
  rwa [if_pos hq] at hx

theorem exists_mod (hv : v.CountsAs l) (hw : w.CountsAs r) (hl : Word.Fits l) (hr : Word.Fits r)
    (hne : r ≠ 0) (hq : ¬Word.Fits (l.fdiv r)) :
    ∃ x, tensorHost (.binary .mod v w) = .ok (.float x) := by
  obtain ⟨x, hx⟩ := hv.mod_eq hw hl hr hne
  rw [if_neg hq] at hx
  exact ⟨x, hx⟩

/-- An integer that is given as the remainder is the exact one. -/
theorem eq_of_mod_eq_ok (hv : v.CountsAs l) (hw : w.CountsAs r) (hl : Word.Fits l)
    (hr : Word.Fits r) (hne : r ≠ 0) {m : Int} (hm : tensorHost (.binary .mod v w) = .ok (.int m)) :
    l.fmod r = m := by
  obtain ⟨x, hx⟩ := hv.mod_eq hw hl hr hne
  rw [hm] at hx
  split at hx <;> cases hx
  rfl

theorem pow (hv : v.CountsAs l) (hw : w.CountsAs r) (hr : 0 ≤ r) (hlt : r < 4294967296) :
    GivesExact (tensorHost (.binary .pow v w)) (l ^ r.toNat) := by
  refine hv.binary_givesExact rfl hw (by simp) ?_
  have hchecked := Number.intPower?_eq (n := l) (k := r.toNat) (by omega)
  rw [Int.toNat_of_nonneg hr] at hchecked
  rw [Number.intArithmetic, hchecked]

theorem exists_pow (hv : v.CountsAs l) (hw : w.CountsAs r) (hr : 4294967296 ≤ r) :
    ∃ x, tensorHost (.binary .pow v w) = .ok (.float x) := by
  rw [hv.binary_eq_ok rfl hw (by simp), Number.intArithmetic, Number.intPower?_eq_none hr]
  exact ⟨_, rfl⟩

end Value.CountsAs

variable {v w : Value} {l r : Int}

/-- **Integer arithmetic is exact if the result fits.** Of integers and truth values, the sum, the
difference, the product, the opposite and, for a divisor other than zero, the quotient rounded down
are given exactly if they fit in a word, and as floats otherwise. Quotients and remainders fail just
for the divisor zero. Where both are integers, the quotient times the divisor and the remainder make
up the dividend, and the remainder lies between zero and the divisor. The two steps that are not
checked, the corrections of the Euclidean quotient and remainder, stay in the range of words. -/
theorem integer_arithmetic_is_exact_if_it_fits (hv : v.CountsAs l) (hw : w.CountsAs r)
    (hl : Word.Fits l) (hr : Word.Fits r) :
    GivesExact (tensorHost (.binary .add v w)) (l + r) ∧
    GivesExact (tensorHost (.binary .sub v w)) (l - r) ∧
    GivesExact (tensorHost (.binary .mul v w)) (l * r) ∧
    GivesExact (tensorHost (.unary .neg v)) (-l) ∧
    (r ≠ 0 → GivesExact (tensorHost (.binary .floorDiv v w)) (l.fdiv r)) ∧
    (∀ e, tensorHost (.binary .floorDiv v w) = .error e ↔ e = .divisionByZero ∧ r = 0) ∧
    (∀ e, tensorHost (.binary .mod v w) = .error e ↔ e = .divisionByZero ∧ r = 0) ∧
    (∀ q m, tensorHost (.binary .floorDiv v w) = .ok (.int q) →
      tensorHost (.binary .mod v w) = .ok (.int m) →
        q * r + m = l ∧ (0 ≤ m ∧ m < r ∨ r < m ∧ m ≤ 0)) ∧
    ∀ q m, Word.quotient? l r = some q → Word.remainder? l r = some m →
      Word.Fits (q - Word.excess r m) ∧ (r < 0 → Word.Fits (m + r)) := by
  have hdiv : ∀ e, tensorHost (.binary .floorDiv v w) = .error e ↔ e = .divisionByZero ∧ r = 0 := by
    intro e
    rw [hv.binary_eq rfl hw]
    exact Number.arithmetic_int_eq_error_iff (by decide)
  refine ⟨hv.binary_givesExact rfl hw (by simp) rfl, hv.binary_givesExact rfl hw (by simp) rfl,
    hv.binary_givesExact rfl hw (by simp) rfl, hv.neg, hv.floorDiv hw hl, hdiv, fun e => ?_,
    fun q m hq hm => ?_, fun q m hq hm => ?_⟩
  · rw [hv.binary_eq rfl hw]
    exact Number.arithmetic_int_eq_error_iff (by decide)
  · have hne : r ≠ 0 := by
      intro h
      cases hq.symm.trans ((hdiv _).mpr ⟨rfl, h⟩)
    obtain rfl := (hv.floorDiv hw hl hne).eq_of_ok hq
    obtain rfl := hv.eq_of_mod_eq_ok hw hl hr hne hm
    exact ⟨Int.fdiv_mul_add_fmod l r, Word.fmod_between l hne⟩
  · obtain ⟨-, hfits, rfl⟩ := Word.quotient?_eq_some_iff.mp hq
    obtain ⟨-, -, rfl⟩ := Word.remainder?_eq_some_iff.mp hm
    exact ⟨Word.fits_ediv_sub_excess hl hfits, Word.fits_emod_add hr⟩

/-- The least word but one by -2: its quotient and its remainder are corrected, and the sum is no
word. -/
theorem quotient_of_odd_word_by_minus_two :
    Word.Fits (-9223372036854775807) ∧ Word.Fits (-2) ∧
      (∃ x, tensorHost (.binary .add (.int (-9223372036854775807)) (.int (-2))) =
        .ok (.float x)) ∧
      tensorHost (.binary .floorDiv (.int (-9223372036854775807)) (.int (-2))) =
        .ok (.int 4611686018427387903) ∧
      tensorHost (.binary .mod (.int (-9223372036854775807)) (.int (-2))) = .ok (.int (-1)) ∧
      4611686018427387903 * (-2) + (-1 : Int) = -9223372036854775807 := by
  have hl : Word.Fits (-9223372036854775807) := by decide
  have hr : Word.Fits (-2) := by decide
  obtain ⟨hadd, -, -, -, hdiv, -, -, hboth, -⟩ :=
    integer_arithmetic_is_exact_if_it_fits (.int _) (.int _) hl hr
  have hquotient := (hdiv (by decide)).eq_ok (by decide)
  have hremainder : tensorHost (.binary .mod (.int (-9223372036854775807)) (.int (-2))) =
      .ok (.int (-1)) := rfl
  exact ⟨hl, hr, hadd.exists_float (by decide), hquotient, hremainder,
    (hboth _ _ hquotient hremainder).1⟩

/-- **Remainders and powers of integers.** For a divisor other than zero there is a remainder, which
makes up the dividend together with the quotient rounded down and lies between zero and the divisor.
It is given as an integer, except for the least word and -1: their quotient is no word, and the
remainder, which is zero, becomes a float with it. A power with an exponent from 0 up to and not
including `2 ^ 32` is given exactly if it fits in a word, and as a float otherwise. From `2 ^ 32` on
every power is a float, also those that fit, which are the powers of -1, 0 and 1. -/
theorem integers_of_remainders_and_powers (hv : v.CountsAs l) (hw : w.CountsAs r)
    (hl : Word.Fits l) (hr : Word.Fits r) :
    (r ≠ 0 →
      l.fdiv r * r + l.fmod r = l ∧
      (0 ≤ l.fmod r ∧ l.fmod r < r ∨ r < l.fmod r ∧ l.fmod r ≤ 0) ∧
      (¬(l = -Word.half ∧ r = -1) → tensorHost (.binary .mod v w) = .ok (.int (l.fmod r))) ∧
      (l = -Word.half ∧ r = -1 →
        l.fmod r = 0 ∧ ∃ x, tensorHost (.binary .mod v w) = .ok (.float x))) ∧
    (0 ≤ r → r < 4294967296 → GivesExact (tensorHost (.binary .pow v w)) (l ^ r.toNat)) ∧
    (4294967296 ≤ r →
      (∃ x, tensorHost (.binary .pow v w) = .ok (.float x)) ∧
      (Word.Fits (l ^ r.toNat) ↔ l.natAbs ≤ 1)) := by
  refine ⟨fun hne => ?_, hv.pow hw, fun hlarge => ⟨hv.exists_pow hw hlarge, ?_⟩⟩
  · have hfits : Word.Fits (l.fdiv r) ↔ ¬(l = -Word.half ∧ r = -1) :=
      (Word.fits_fdiv_iff hl hne).trans (Word.fits_ediv_iff hl hne)
    refine ⟨Int.fdiv_mul_add_fmod l r, Word.fmod_between l hne, fun h => ?_, fun h => ⟨?_, ?_⟩⟩
    · exact hv.mod hw hl hr hne (hfits.mpr h)
    · obtain ⟨rfl, rfl⟩ := h
      decide
    · exact hv.exists_mod hw hl hr hne (mt hfits.mp (not_not_intro h))
  · constructor
    · intro hpow
      by_contra hbase
      exact Number.not_fits_pow hbase (by omega) hpow
    · exact fun hbase => Number.fits_pow_of_natAbs_le_one hbase _

/-- The remainder of -2 by 63, and the power that is the least word. -/
theorem remainder_and_power_of_minus_two :
    Word.Fits (-2) ∧ Word.Fits 63 ∧
      tensorHost (.binary .mod (.int (-2)) (.int 63)) = .ok (.int 61) ∧
      tensorHost (.binary .pow (.int (-2)) (.int 63)) = .ok (.int (-9223372036854775808)) := by
  have hl : Word.Fits (-2) := by decide
  have hr : Word.Fits 63 := by decide
  obtain ⟨hmod, hpow, -⟩ := integers_of_remainders_and_powers (.int _) (.int _) hl hr
  obtain ⟨-, -, hremainder, -⟩ := hmod (by decide)
  exact ⟨hl, hr, hremainder (by decide), (hpow (by decide) (by decide)).eq_ok (by decide)⟩

/-- **Remainders and powers that fit are given as floats.** So the remainder of the least word by
-1, which is zero, and the power of 1 with the exponent `2 ^ 32`, which is one. -/
theorem fitting_remainder_and_power_are_floats :
    (¬∀ l r : Int, Word.Fits l → Word.Fits r → r ≠ 0 →
      tensorHost (.binary .mod (.int l) (.int r)) = .ok (.int (l.fmod r))) ∧
    ¬∀ l r : Int, Word.Fits l → Word.Fits r → 0 ≤ r →
      GivesExact (tensorHost (.binary .pow (.int l) (.int r))) (l ^ r.toNat) := by
  constructor
  · intro h
    have hfits : Word.Fits (-9223372036854775808) := by decide
    have hint := h (-9223372036854775808) (-1) hfits (by decide) (by decide)
    obtain ⟨x, hx⟩ := Value.CountsAs.exists_mod (.int (-9223372036854775808)) (.int (-1)) hfits
      (by decide) (by decide) (by decide)
    cases hint.symm.trans hx
  · intro h
    have hint := h 1 4294967296 (by decide) (by decide) (by decide)
    rw [one_pow] at hint
    obtain ⟨x, hx⟩ := Value.CountsAs.exists_pow (.int 1) (.int 4294967296) (by decide)
    cases (hint.eq_ok (by decide)).symm.trans hx

end ShapeFault
