import ShapeFault.Decimal.Notation
import ShapeFault.Proofs.Lexing.NumberValue
import ShapeFault.Proofs.Source.Trimmed

/-!
# Texts of numbers

A size and an integer are read back from their texts (`size?_digitChars`, `int64?_intText`). The
text of a binary64 value is never taken for one of an integer (`int64?_floatText`): besides digits
and a minus there is some other character in it, which is the point, the letter of an exponent, or a
letter of what is no finite number.
-/

namespace ShapeFault.Decimal

/-! ### The characters of numbers -/

/-- What tells the text of a binary64 value from one of an integer. -/
def marks : List Char :=
  ['.', 'e', 'i', 'n', 'f', 'N', 'a']

/-- Whether a character can stand in the text of a number. -/
def isFigure (c : Char) : Bool :=
  c.isDigit || c == '-' || marks.contains c

theorem isFigure_of_isDigit {c : Char} (h : c.isDigit) : isFigure c := by
  simp [isFigure, h]

theorem isBlank_eq_false_of_isFigure {c : Char} (h : isFigure c) : Text.isBlank c = false := by
  have hmarks : (marks.all fun c => !Text.isBlank c) = true := by decide
  simp only [isFigure, Bool.or_eq_true, beq_iff_eq, List.contains_iff_mem] at h
  rcases h with (hdigit | rfl) | hmark
  · exact Text.isBlank_eq_false_of_isDigit hdigit
  · decide
  · simpa using List.all_eq_true.mp hmarks c hmark

variable {cs ds : List Char} {n : Nat}

/-- A text of figures with a mark in it. -/
structure Marked (cs : List Char) : Prop where
  figures : ∀ c ∈ cs, isFigure c
  exists_mark : ∃ c ∈ cs, marks.contains c

/-! ### Integers -/

theorem isDigit_of_mem_digitChars {c : Char} (h : c ∈ digitChars n) : c.isDigit :=
  Nat.isDigit_of_mem_toDigits (by decide) (by decide) h

theorem digitChars_injective : Function.Injective digitChars :=
  Function.LeftInverse.injective value_digitChars

theorem digitChars_ne_nil : digitChars n ≠ [] :=
  Nat.toDigits_ne_nil

theorem natural?_digitChars (n : Nat) : natural? (digitChars n) = some n := by
  rw [natural?_eq digitChars_ne_nil fun _ => isDigit_of_mem_digitChars, value_digitChars]

/-- **A size is read back** from its digits. -/
theorem size?_digitChars (h : n < Word.count) : size? (digitChars n) = some n := by
  unfold size?
  split
  case h_1 hplus =>
    have hdigit : ('+' : Char).isDigit :=
      isDigit_of_mem_digitChars (n := n) (by rw [hplus]; exact List.mem_cons_self)
    exact absurd hdigit (by decide)
  case h_2 =>
    rw [natural?_digitChars, Option.bind_eq_bind, Option.bind_some, if_pos h]

theorem splitSign_intChars (n : Int) :
    splitSign (intChars n) = (decide (n < 0), digitChars n.natAbs) := by
  rw [intChars]
  split
  case isTrue hneg => rw [decide_eq_true hneg]; rfl
  case isFalse hneg =>
    rw [decide_eq_false hneg, splitSign_of_isDigit fun _ => isDigit_of_mem_digitChars]

/-- **An integer is read back** from its text. -/
theorem int64?_intText {n : Int} (h : Word.Fits n) : int64? (intText n).toList = some n := by
  have hvalue : (if decide (n < 0) then -(n.natAbs : Int) else n.natAbs) = n := by
    simp only [decide_eq_true_eq]
    split <;> omega
  rw [intText, String.toList_ofList, int64?_eq_bind, splitSign_intChars, natural?_digitChars,
    Option.bind_some, hvalue, Word.checked?_eq h]

theorem isFigure_of_mem_intText {n : Int} {c : Char} (h : c ∈ (intText n).toList) :
    isFigure c := by
  rw [intText, String.toList_ofList, intChars] at h
  split at h
  case isTrue =>
    rcases List.mem_cons.mp h with rfl | hc
    · decide
    · exact isFigure_of_isDigit (isDigit_of_mem_digitChars hc)
  case isFalse => exact isFigure_of_isDigit (isDigit_of_mem_digitChars h)

/-! ### Binary64 values -/

theorem mem_splitSign {c : Char} (h : c ∈ cs) (hminus : c ≠ '-') (hplus : c ≠ '+') :
    c ∈ (splitSign cs).2 := by
  cases cs with
  | nil => cases h
  | cons d cs =>
    simp only [splitSign]
    split
    case isTrue hd => exact List.mem_of_ne_of_mem (hd ▸ hminus) h
    case isFalse =>
      split
      case isTrue hd => exact List.mem_of_ne_of_mem (hd ▸ hplus) h
      case isFalse => exact h

/-- No integer has a mark in it. -/
theorem Marked.int64?_eq_none (h : Marked cs) : int64? cs = none := by
  have hmarks : (marks.all fun c => !c.isDigit && c != '-' && c != '+') = true := by decide
  obtain ⟨c, hc, hmark⟩ := h.exists_mark
  have hplain := List.all_eq_true.mp hmarks c (List.contains_iff_mem.mp hmark)
  simp only [Bool.and_eq_true, Bool.not_eq_true', bne_iff_ne] at hplain
  obtain ⟨⟨hdigit, hminus⟩, hplus⟩ := hplain
  have hnatural : natural? (splitSign cs).2 = none := by
    refine if_neg fun hall => ?_
    have hc' := List.all_eq_true.mp hall.2 c (mem_splitSign hc hminus hplus)
    rw [hdigit] at hc'
    cases hc'
  rw [int64?_eq_bind, hnatural, Option.bind_none]

theorem isDigit_of_mem_dropFinalZeros {c : Char} (hds : ∀ d ∈ ds, d.isDigit)
    (h : c ∈ dropFinalZeros ds) : c.isDigit := by
  have hreverse := List.dropWhile_subset _ (List.mem_reverse.mp h)
  exact hds c (List.mem_reverse.mp hreverse)

/-- A number that is written without an exponent has a point. -/
theorem Marked.plain (place : Int) (hds : ∀ d ∈ ds, d.isDigit) : Marked (plain place ds) := by
  have hfigures : ∀ c ∈ ds, isFigure c := fun c hc => isFigure_of_isDigit (hds c hc)
  unfold Decimal.plain
  split
  case isTrue =>
    refine ⟨fun c hc => ?_, '.', by simp, by decide⟩
    simp only [List.mem_cons, List.mem_append, List.mem_replicate] at hc
    rcases hc with rfl | rfl | ⟨-, rfl⟩ | hc
    · decide
    · decide
    · decide
    · exact hfigures c hc
  case isFalse =>
    refine ⟨fun c hc => ?_, '.', by simp, by decide⟩
    simp only [List.mem_cons, List.mem_append, List.mem_replicate] at hc
    rcases hc with (hc | ⟨-, rfl⟩) | rfl | hc
    · exact hfigures c (List.mem_of_mem_take hc)
    · decide
    · decide
    · split at hc
      · rw [List.mem_singleton.mp hc]
        decide
      · exact hfigures c (List.mem_of_mem_drop hc)

/-- A number that is written with an exponent has the letter of the exponent. -/
theorem Marked.scientific (place : Int) (hds : ∀ d ∈ ds, d.isDigit) :
    Marked (scientific place ds) := by
  have hfigures : ∀ c ∈ ds, isFigure c := fun c hc => isFigure_of_isDigit (hds c hc)
  refine ⟨fun c hc => ?_, 'e', by simp [Decimal.scientific], by decide⟩
  simp only [Decimal.scientific, List.mem_cons, List.mem_append] at hc
  rcases hc with (hc | hc) | rfl | hc | hc
  · exact hfigures c (List.mem_of_mem_take hc)
  · split at hc
    · cases hc
    · rcases List.mem_cons.mp hc with rfl | hc
      · decide
      · exact hfigures c (List.mem_of_mem_drop hc)
  · decide
  · split at hc
    · rw [List.mem_singleton.mp hc]
      decide
    · cases hc
  · exact isFigure_of_isDigit (isDigit_of_mem_digitChars hc)

theorem Marked.decimal (l : Layout) (d : Decimal) : Marked (l.decimal d) := by
  have hdigits : ∀ c ∈ dropFinalZeros (digitChars d.digits), c.isDigit := fun _ hc =>
    isDigit_of_mem_dropFinalZeros (fun _ => isDigit_of_mem_digitChars) hc
  unfold Layout.decimal
  dsimp only
  split
  · exact Marked.plain _ hdigits
  · exact Marked.scientific _ hdigits

theorem Marked.cons_minus (h : Marked cs) : Marked ('-' :: cs) := by
  obtain ⟨c, hc, hmark⟩ := h.exists_mark
  exact ⟨List.forall_mem_cons.mpr ⟨by decide, h.figures⟩, c, List.mem_cons_of_mem _ hc, hmark⟩

/-- A text can be checked to be marked. -/
theorem marked_of_all (hfigures : cs.all isFigure) (hmark : cs.any marks.contains) : Marked cs :=
  ⟨List.all_eq_true.mp hfigures, List.any_eq_true.mp hmark⟩

theorem marked_floatText (x : Float) : Marked (floatText x).toList := by
  have hbody : Marked (if x.isInf then Layout.values.infinity.toList
      else if x == 0.0 then plain 0 ['0'] else Layout.values.decimal (shortest x)) := by
    split
    · exact marked_of_all (by decide) (by decide)
    · split
      · exact marked_of_all (by decide) (by decide)
      · exact .decimal _ _
  rw [floatText, String.toList_ofList, Layout.float]
  split
  · exact marked_of_all (by decide) (by decide)
  · dsimp only
    split
    · exact hbody.cons_minus
    · exact hbody

/-- **The text of a binary64 value** is never one of an integer. -/
theorem int64?_floatText (x : Float) : int64? (floatText x).toList = none :=
  (marked_floatText x).int64?_eq_none

end ShapeFault.Decimal
