import ShapeFault.Proofs.Lexing.Form

/-!
# Each number has a value

The reader of tokens takes a text for a number by its form, and the value of the text is computed
afterwards. The second never fails where the first succeeds (`Stands.exists_ofNumber?`): digits
alone have been compared with the range of words, and every other number has the parts of a decimal.
-/

namespace ShapeFault

open Token (Kind)

namespace Decimal

theorem natural?_eq {cs : List Char} (hne : cs ≠ []) (hcs : ∀ c ∈ cs, c.isDigit) :
    natural? cs = some (value cs) :=
  if_pos ⟨hne, List.all_eq_true.mpr hcs⟩

/-- A text that starts with a digit or a point has no sign. -/
theorem splitSign_eq {cs : List Char} (h : ∀ c ∈ cs.head?, c ≠ '-' ∧ c ≠ '+') :
    splitSign cs = (false, cs) := by
  cases cs with
  | nil => rfl
  | cons c cs => simp [splitSign, h c rfl]

theorem splitSign_of_startsNumber {cs : List Char} (h : Lexeme.startsNumber cs) :
    splitSign cs = (false, cs) := by
  refine splitSign_eq fun c hc => ?_
  obtain ⟨ds, rfl⟩ := List.head?_eq_some_iff.mp hc
  constructor <;> rintro rfl <;> rw [Lexeme.startsNumber_cons (by decide)] at h <;>
    exact absurd h (by decide)

theorem splitSign_of_isDigit {digits : List Char} (hdigits : ∀ c ∈ digits, c.isDigit) :
    splitSign digits = (false, digits) := by
  refine splitSign_eq fun c hc => ?_
  have hdigit := hdigits c (List.mem_of_mem_head? hc)
  constructor <;> rintro rfl <;> exact absurd hdigit (by decide)

theorem splitSign_append {sign digits : List Char}
    (hsign : sign = [] ∨ sign = ['+'] ∨ sign = ['-'])
    (hdigits : ∀ c ∈ digits, c.isDigit) : (splitSign (sign ++ digits)).2 = digits := by
  rcases hsign with rfl | rfl | rfl
  · rw [List.nil_append, splitSign_of_isDigit hdigits]
  · rfl
  · rfl

theorem isSome_exponent? {es : List Char} (h : Lexeme.Exponent es) : (exponent? es).isSome := by
  cases h with
  | none => rfl
  | some he hsign hne hdigits =>
    rw [exponent?, if_pos he]
    simp only [splitSign_append hsign hdigits, natural?_eq hne hdigits]
    rfl

/-- The digits at the front of a text, where something else follows them. -/
theorem takeWhile_digits {ds rest : List Char} (hds : ∀ d ∈ ds, d.isDigit)
    (hrest : ∀ c ∈ rest.head?, c.isDigit = false) :
    (ds ++ rest).takeWhile Char.isDigit = ds ∧ (ds ++ rest).dropWhile Char.isDigit = rest := by
  have htake : rest.takeWhile Char.isDigit = [] := by
    cases rest with
    | nil => rfl
    | cons c cs => simp [hrest c rfl]
  have hdrop : rest.dropWhile Char.isDigit = rest := by
    cases rest with
    | nil => rfl
    | cons c cs => simp [hrest c rfl]
  exact ⟨by rw [List.takeWhile_append_of_pos hds, htake, List.append_nil],
    by rw [List.dropWhile_append_of_pos hds, hdrop]⟩

/-- The digits and the point of a number, in front of its exponent. -/
theorem exists_mantissa? {ds fs es : List Char} (h : Lexeme.NumberParts ds fs es)
    (hdigit : ∃ d ∈ ds ++ fs, d.isDigit) : ∃ m, mantissa? (ds ++ fs ++ es) = some (m, es) := by
  obtain ⟨hds, hfs, hes⟩ := h
  have hend : ∀ c ∈ es.head?, c.isDigit = false := by
    have := hes.head_append Lexeme.calm_nil
    rwa [List.append_nil] at this
  cases hfs with
  | none =>
    rw [List.append_nil] at hdigit ⊢
    obtain ⟨htake, hdrop⟩ := takeWhile_digits hds hend
    have hne : ds ≠ [] := by
      rintro rfl
      obtain ⟨d, hd, -⟩ := hdigit
      cases hd
    refine ⟨⟨value ds, 0⟩, ?_⟩
    cases hes with
    | none => simp only [mantissa?, htake, hdrop, if_neg hne]
    | @some e sign digits he =>
      have hdot : e ≠ '.' := by rcases he with rfl | rfl <;> decide
      simp only [mantissa?, htake, hdrop]
      simp [hdot, hne]
  | @some ys hys =>
    have hsplit : ds ++ '.' :: ys ++ es = ds ++ '.' :: (ys ++ es) := by simp
    have hpoint : ∀ c ∈ ('.' :: (ys ++ es)).head?, c.isDigit = false := by
      rintro c ⟨⟩
      rfl
    obtain ⟨htake, hdrop⟩ := takeWhile_digits hds hpoint
    obtain ⟨htake', hdrop'⟩ := takeWhile_digits hys hend
    have hne : ¬ (ds = [] ∧ ys = []) := by
      rintro ⟨rfl, rfl⟩
      obtain ⟨d, hd, hdigit⟩ := hdigit
      obtain rfl := List.mem_singleton.mp hd
      exact absurd hdigit (by decide)
    refine ⟨⟨value (ds ++ ys), -ys.length⟩, ?_⟩
    rw [hsplit]
    simp only [mantissa?, htake, hdrop, htake', hdrop', if_neg hne]

theorem isSome_magnitude? {cs : List Char} (h : (ofChars? cs).isSome) :
    (magnitude? cs).isSome := by
  unfold magnitude?
  simp only
  split
  · exact Option.isSome_some
  · split
    · exact Option.isSome_some
    · rw [Option.isSome_map]
      exact h

theorem isSome_float?_of_splitSign {cs : List Char} (hsign : splitSign cs = (false, cs))
    (h : (ofChars? cs).isSome) : (float? cs).isSome := by
  unfold float?
  simp only [hsign, Option.isSome_map]
  exact isSome_magnitude? h

theorem isSome_ofChars? {cs rest : List Char} {m : Decimal} (hm : mantissa? cs = some (m, rest))
    (he : (exponent? rest).isSome) : (ofChars? cs).isSome := by
  obtain ⟨e, he⟩ := Option.isSome_iff_exists.mp he
  simp [ofChars?, hm, he]

/-- A number in its parts stands for a binary64 value. -/
theorem isSome_float? {w : List Char} (h : Lexeme.NumberForm w) : (float? w).isSome := by
  have hstart := h.startsNumber []
  rw [List.append_nil] at hstart
  refine isSome_float?_of_splitSign (splitSign_of_startsNumber hstart) ?_
  obtain ⟨ds, fs, es, rfl, hparts, hdigit⟩ := h
  obtain ⟨m, hm⟩ := exists_mantissa? hparts hdigit
  exact isSome_ofChars? hm (isSome_exponent? hparts.exponent)

theorem int64?_eq_bind (cs : List Char) :
    int64? cs = (natural? (splitSign cs).2).bind fun n =>
      Word.checked? (if (splitSign cs).1 then -(n : Int) else n) :=
  rfl

theorem int64?_eq_checked? {w : List Char} (hstart : Lexeme.startsNumber w)
    (hw : ∀ c ∈ w, c.isDigit) : int64? w = Word.checked? (value w) := by
  have hne : w ≠ [] := by
    rintro rfl
    cases hstart
  rw [int64?_eq_bind, splitSign_of_isDigit hw, natural?_eq hne hw, Option.bind_some,
    if_neg Bool.false_ne_true]

/-- Digits whose value fits in a word stand for an integer … -/
theorem int64?_eq {w : List Char} (hstart : Lexeme.startsNumber w) (hw : ∀ c ∈ w, c.isDigit)
    (hfits : value w < Word.half) : int64? w = some (value w : Int) := by
  rw [int64?_eq_checked? hstart hw, Word.checked?_eq (Word.fits_of_lt hfits)]

/-- … and other digits stand for none. -/
theorem int64?_eq_none {w : List Char} (hstart : Lexeme.startsNumber w)
    (hw : ∀ c ∈ w, c.isDigit) (hvalue : Word.half ≤ value w) : int64? w = none := by
  have hlarge : ¬ Word.Fits (value w : Int) := by
    rintro ⟨-, hlt⟩
    omega
  rw [int64?_eq_checked? hstart hw, Word.checked?_eq_none hlarge]

end Decimal

/-- **The text of a number has a value.** -/
theorem Stands.exists_ofNumber? {w : String} {rest : List Char}
    (h : Stands .number w.toList rest) : ∃ l, Literal.ofNumber? w = some l := by
  obtain ⟨hform, hfits⟩ := number_alone_iff.mp h.alone
  have hstart := hform.startsNumber []
  rw [List.append_nil] at hstart
  refine Option.isSome_iff_exists.mp ?_
  simp only [Literal.ofNumber?]
  split
  case isTrue =>
    rw [Option.isSome_map]
    exact Decimal.isSome_float? hform
  case isFalse hfloat =>
    have hdigits := h.isFloatText_eq_false_iff.mp (Bool.eq_false_iff.mpr hfloat)
    rw [Option.isSome_map, Decimal.int64?_eq hstart hdigits (hfits hdigits)]
    rfl

end ShapeFault
