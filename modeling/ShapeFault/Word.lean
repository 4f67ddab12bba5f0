/-!
# Words of 64 bits

Sizes are held in words without a sign and integers in words with a sign. All arithmetic of this
library is on numbers of any size; the definitions here say where the range of a word matters. A
result can be checked, and is then given up if it does not fit (`checked?`), or left to wrap around
(`wrap`). Where a sum is just written down, it depends on how the program is built what becomes of
one that leaves its word (`Overflow`). Words are divided by correcting the Euclidean quotient and
remainder.
-/

namespace ShapeFault.Word

/-- The number of words, `2 ^ 64`. Numbers below it fit in a word without a sign. -/
def count : Nat :=
  18446744073709551616

/-- Half the number of words, `2 ^ 63`. Natural numbers below it fit in a word with a sign. -/
def half : Nat :=
  9223372036854775808

/-- The integers that fit in a word with a sign. -/
def Fits (n : Int) : Prop :=
  -half ≤ n ∧ n < half

instance (n : Int) : Decidable (Fits n) :=
  inferInstanceAs (Decidable (_ ∧ _))

/-- A result in a word with a sign, if it fits. -/
def checked? (n : Int) : Option Int :=
  if Fits n then some n else none

theorem checked?_eq {n : Int} (h : Fits n) : checked? n = some n :=
  if_pos h

theorem checked?_eq_none {n : Int} (h : ¬Fits n) : checked? n = none :=
  if_neg h

/-- What a result wraps around to where a word is computed without a check. -/
def wrap (n : Int) : Int :=
  n.bmod count

/-- The Euclidean quotient of two words, if there is one and it is a word. -/
def quotient? (m n : Int) : Option Int :=
  if n = 0 then none else checked? (m / n)

/-- The Euclidean remainder of two words. It is given up together with the quotient, although it
always is a word. -/
def remainder? (m n : Int) : Option Int :=
  (quotient? m n).map fun _ => m % n

/-- By how much the Euclidean quotient for the divisor `n` is above the one that is rounded down, if
the remainder is `r`. -/
def excess (n r : Int) : Int :=
  if n < 0 ∧ r ≠ 0 then 1 else 0

/-- The quotient of two words rounded down. The Euclidean quotient is corrected without a check. -/
def floorQuotient? (m n : Int) : Option Int := do
  let q ← quotient? m n
  let r ← remainder? m n
  some (wrap (q - excess n r))

/-- The remainder that goes with the quotient rounded down, of the sign of the divisor. The
Euclidean remainder is corrected without a check. -/
def floorRemainder? (m n : Int) : Option Int := do
  let r ← remainder? m n
  some (if n < 0 ∧ r ≠ 0 then wrap (r + n) else r)

/-- A word without a sign, taken as one with a sign. Numbers below `half` stand for themselves. -/
def asSigned (n : Nat) : Int :=
  (n : Int).bmod count

theorem asSigned_of_lt {n : Nat} (h : n < half) : asSigned n = n := by
  simp only [half] at h
  simp only [asSigned, count, Int.bmod_def]
  omega

theorem asSigned_le (n : Nat) : asSigned n ≤ n := by
  simp only [asSigned, count, Int.bmod_def]
  omega

theorem fits_of_lt {n : Nat} (h : n < half) : Fits n :=
  ⟨by simp only [half]; omega, by omega⟩

/-- What becomes of a sum that leaves its word, as it is settled when a program is built. -/
inductive Overflow where
  /-- the program is aborted -/
  | abort
  /-- the sum wraps around -/
  | wrap
  deriving DecidableEq, Repr

/-- The sum of two words without a sign, if the program goes on with one. -/
def sum? (o : Overflow) (m n : Nat) : Option Nat :=
  match o with
  | .abort => if m + n < count then some (m + n) else none
  | .wrap => some ((m + n) % count)

/-- A sum that is a word is computed as it is. -/
theorem sum?_of_lt (o : Overflow) {m n : Nat} (h : m + n < count) : sum? o m n = some (m + n) := by
  cases o with
  | abort => exact if_pos h
  | wrap => rw [sum?, Nat.mod_eq_of_lt h]

theorem sum?_abort_eq_some_iff {m n k : Nat} :
    sum? .abort m n = some k ↔ k = m + n ∧ m + n < count := by
  rw [sum?]
  split <;> simp [*, eq_comm]

/-- Only a checked sum is ever given up. -/
theorem sum?_eq_none_iff {o : Overflow} {m n : Nat} :
    sum? o m n = none ↔ o = .abort ∧ count ≤ m + n := by
  cases o with
  | abort =>
    rw [sum?]
    by_cases h : m + n < count
    · simp [h, Nat.not_le.mpr h]
    · simp [h, Nat.not_lt.mp h]
  | wrap => simp [sum?]

/-- A place among `size` places counted from the front; one below zero is counted from the end. Only
the sum of two words that both are below zero can leave its word, so no other is checked. -/
def fromFront? (size place : Int) : Option Int :=
  if 0 ≤ place then some place
  else if 0 ≤ size then some (place + size)
  else checked? (place + size)

theorem fromFront?_of_nonneg {size : Int} (h : 0 ≤ size) (place : Int) :
    fromFront? size place = some (if place < 0 then place + size else place) := by
  unfold fromFront?
  by_cases hplace : 0 ≤ place
  · rw [if_pos hplace, if_neg (Int.not_lt.mpr hplace)]
  · rw [if_neg hplace, if_pos h, if_pos (Int.not_le.mp hplace)]

end ShapeFault.Word
