import ShapeFault.Expr.Literal
import ShapeFault.Proofs.Lexing.Stands

/-!
# What may follow a number

A number consists of digits, a fraction and an exponent (`NumberParts`). The reader of numbers looks
beyond the end of a number in two cases only. Behind digits alone it looks for a fraction, and
behind a fraction without digits it looks at what follows the point. `Stands.number_iff_of_calm`
says so: in front of a rest that neither a digit nor an exponent starts, a number stands unless one
of these two cases takes it apart.
-/

namespace ShapeFault

open Token (Kind)

namespace Lexeme

/-- The exponents of numbers; a number may have none. -/
inductive Exponent : List Char → Prop where
  | none : Exponent []
  | some {e : Char} {sign digits : List Char} (he : e = 'e' ∨ e = 'E')
      (hsign : sign = [] ∨ sign = ['+'] ∨ sign = ['-']) (hne : digits ≠ [])
      (hdigits : ∀ d ∈ digits, d.isDigit) : Exponent (e :: (sign ++ digits))

/-- The fractions of numbers; a number may have none. -/
inductive Fraction : List Char → Prop where
  | none : Fraction []
  | some {digits : List Char} (hdigits : ∀ d ∈ digits, d.isDigit) : Fraction ('.' :: digits)

/-- The three parts of a number. -/
structure NumberParts (digits fraction exponent : List Char) : Prop where
  isDigit : ∀ d ∈ digits, d.isDigit
  fraction : Fraction fraction
  exponent : Exponent exponent

/-- Neither a digit nor an exponent starts here. -/
def Calm (rest : List Char) : Prop :=
  ∀ c ∈ rest.head?, c.isDigit = false ∧ c ≠ 'e' ∧ c ≠ 'E'

variable {cs ds fs es rest : List Char}

/-! ### The parts of a number that was read -/

theorem take_digitCount (cs : List Char) : cs.take (digitCount cs) = cs.takeWhile Char.isDigit :=
  (List.prefix_iff_eq_take.mp (List.takeWhile_prefix _)).symm

theorem isDigit_of_mem_take {c : Char} (h : c ∈ cs.take (digitCount cs)) : c.isDigit := by
  rw [take_digitCount] at h
  exact List.all_eq_true.mp (List.all_takeWhile) c h

theorem take_signLength (cs : List Char) :
    cs.take (signLength cs) = [] ∨ cs.take (signLength cs) = ['+'] ∨
      cs.take (signLength cs) = ['-'] := by
  cases cs with
  | nil => exact Or.inl rfl
  | cons c cs =>
    by_cases hc : c = '+' ∨ c = '-'
    · rcases hc with rfl | rfl
      · exact Or.inr (Or.inl rfl)
      · exact Or.inr (Or.inr rfl)
    · simp [signLength, hc]

theorem exponent_take (cs : List Char) : Exponent (cs.take (exponentLength cs)) := by
  unfold exponentLength
  split
  · rename_i e cs
    split
    · rename_i he
      simp only
      split
      · exact .none
      · rename_i n hn
        rw [Nat.add_assoc, Nat.add_comm, List.take_succ_cons, List.take_add]
        refine .some he (take_signLength cs) ?_ fun d hd => ?_
        · intro hnil
          have hlen := congrArg List.length hnil
          have hle := digitCount_le (cs.drop (signLength cs))
          rw [List.length_take, List.length_nil] at hlen
          omega
        · rw [← Nat.succ_eq_add_one, ← hn] at hd
          exact isDigit_of_mem_take hd
    · exact .none
  · exact .none

theorem fraction_take (cs : List Char) : Fraction (cs.take (fractionLength cs)) := by
  unfold fractionLength
  split
  · rename_i c cs
    split
    · rename_i hc
      rw [hc.1, List.take_succ_cons]
      exact .some fun d hd => isDigit_of_mem_take hd
    · exact .none
  · exact .none

theorem exists_parts (cs : List Char) :
    ∃ ds fs es, cs.take (numberLength cs) = ds ++ fs ++ es ∧ NumberParts ds fs es := by
  have hfraction := fraction_take (cs.drop (digitCount cs))
  have hexponent := exponent_take
    (cs.drop (digitCount cs + fractionLength (cs.drop (digitCount cs))))
  refine ⟨cs.take (digitCount cs), _, _, ?_, fun _ => isDigit_of_mem_take, hfraction, hexponent⟩
  simp only [numberLength, List.take_add]

/-! ### Reading the parts of a number -/

theorem Calm.exponentLength_eq_zero (h : Calm rest) : exponentLength rest = 0 := by
  cases rest with
  | nil => rfl
  | cons c cs => simp [exponentLength, (h c rfl).2]

theorem Calm.isDigit_eq_false (h : Calm rest) : ∀ c ∈ rest.head?, c.isDigit = false :=
  fun c hc => (h c hc).1

theorem digitCount_append (hds : ∀ d ∈ ds, d.isDigit)
    (hrest : ∀ c ∈ rest.head?, c.isDigit = false) : digitCount (ds ++ rest) = ds.length :=
  length_takeWhile_append_iff.mpr ⟨hds, hrest⟩

namespace Exponent

theorem head_append (h : Exponent es) (hrest : Calm rest) :
    ∀ c ∈ (es ++ rest).head?, c.isDigit = false := by
  cases h with
  | none => exact hrest.isDigit_eq_false
  | some he =>
    rintro c ⟨⟩
    rcases he with rfl | rfl <;> rfl

/-- An exponent takes all digits behind it. -/
theorem length_append_of_ne_nil (h : Exponent es) (hes : es ≠ []) (rest : List Char) :
    exponentLength (es ++ rest) = es.length + digitCount rest := by
  cases h with
  | none => exact absurd rfl hes
  | @some e sign digits he hsign hne hdigits =>
    obtain ⟨d, ds, rfl⟩ := List.exists_cons_of_ne_nil hne
    have hd : d.isDigit := hdigits d List.mem_cons_self
    have hlen : signLength (sign ++ (d :: ds) ++ rest) = sign.length := by
      rcases hsign with rfl | rfl | rfl
      · have hne : ¬ (d = '+' ∨ d = '-') := by
          rintro (rfl | rfl) <;> exact absurd hd (by decide)
        simp [signLength, hne]
      · rfl
      · rfl
    have hcount : digitCount (d :: ds ++ rest) = ds.length + digitCount rest + 1 := by
      rw [digitCount, List.takeWhile_append_of_pos hdigits, List.length_append, List.length_cons,
        digitCount]
      omega
    simp only [exponentLength, List.cons_append, he, if_true]
    rw [hlen, List.append_assoc, List.drop_left, hcount]
    simp only [List.length_cons, List.length_append]
    omega

theorem length_append (h : Exponent es) (hrest : Calm rest) :
    exponentLength (es ++ rest) = es.length := by
  by_cases hne : es = []
  · subst hne
    exact hrest.exponentLength_eq_zero
  · have hzero : digitCount ([] ++ rest) = 0 := digitCount_append nofun hrest.isDigit_eq_false
    rw [List.nil_append] at hzero
    rw [h.length_append_of_ne_nil hne, hzero, Nat.add_zero]

end Exponent

/-- A number that begins with all digits at hand goes on with a fraction and an exponent. -/
theorem numberLength_append {cs : List Char} (hds : ∀ d ∈ ds, d.isDigit)
    (hcs : ∀ c ∈ cs.head?, c.isDigit = false) :
    numberLength (ds ++ cs) = ds.length + fractionLength cs +
      exponentLength (cs.drop (fractionLength cs)) := by
  simp only [numberLength, digitCount_append hds hcs, ← List.drop_drop, List.drop_left]

theorem NumberParts.numberLength_eq (h : NumberParts ds fs es) (hrest : Calm rest) :
    numberLength (ds ++ fs ++ es ++ rest) = ds.length + fractionLength (fs ++ (es ++ rest)) +
      exponentLength ((fs ++ (es ++ rest)).drop (fractionLength (fs ++ (es ++ rest)))) := by
  have hsplit : ds ++ fs ++ es ++ rest = ds ++ (fs ++ (es ++ rest)) := by simp
  rw [hsplit]
  refine numberLength_append h.isDigit ?_
  cases h.fraction with
  | none => exact h.exponent.head_append hrest
  | some =>
    rintro c ⟨⟩
    rfl

/-- A point with digits or an exponent behind it belongs to its number. -/
theorem NumberParts.pointBelongs_append (h : NumberParts ds ('.' :: fs) es) (hrest : Calm rest)
    (hne : fs ≠ [] ∨ es ≠ []) : pointBelongs (fs ++ (es ++ rest)) := by
  obtain ⟨-, hfraction, hexponent⟩ := h
  cases hfraction with
  | some hdigits =>
    cases fs with
    | nil =>
      have hes : es ≠ [] := by simpa using hne
      have hpos : exponentLength (es ++ rest) ≠ 0 := by
        rw [hexponent.length_append hrest]
        exact fun hlen => hes (List.eq_nil_of_length_eq_zero hlen)
      simp [pointBelongs, hpos]
    | cons d ds =>
      have hd : d.isDigit := hdigits d List.mem_cons_self
      have hdot : d ≠ '.' := by
        rintro rfl
        exact absurd hd (by decide)
      simp [pointBelongs, hdot, Text.startsWord_eq_false_of_isDigit hd]

/-- **The reader of a number looks beyond its end in two cases only.** -/
theorem NumberParts.numberLength_eq_iff (h : NumberParts ds fs es) (hrest : Calm rest) :
    numberLength (ds ++ fs ++ es ++ rest) = (ds ++ fs ++ es).length ↔
      (fs = [] → es = [] → fractionLength rest = 0) ∧
        (fs = ['.'] → es = [] → pointBelongs rest) := by
  have hexponent := h.exponent.length_append hrest
  rw [h.numberLength_eq hrest]
  simp only [List.length_append]
  -- only digits alone and a point at the end of them leave the fraction to the rest
  rcases hparts : h with ⟨-, - | @⟨digits, hdigits⟩, hes⟩
  · cases hes with
    | none =>
      simp only [List.nil_append, List.length_nil, true_implies, List.nil_eq, reduceCtorEq,
        false_implies, and_true]
      constructor
      · omega
      · intro hzero
        rw [hzero, List.drop_zero, hrest.exponentLength_eq_zero]
    | @some e sign digits he =>
      have hdot : e ≠ '.' := by rcases he with rfl | rfl <;> decide
      have hzero : fractionLength (e :: (sign ++ digits) ++ rest) = 0 := by
        simp [fractionLength, hdot]
      simp only [List.nil_append, hzero, List.drop_zero, hexponent, List.length_nil]
      simp
  · by_cases hne : digits ≠ [] ∨ es ≠ []
    · have hpoint := h.pointBelongs_append hrest hne
      have hlen : fractionLength ('.' :: digits ++ (es ++ rest)) = ('.' :: digits).length := by
        simp [fractionLength, hpoint, digitCount_append hdigits (h.exponent.head_append hrest)]
      rw [hlen, List.drop_left, hexponent]
      simp only [true_iff, reduceCtorEq, false_implies, true_and, List.cons.injEq]
      intro hdigits hes
      simp [hdigits, hes] at hne
    · obtain ⟨rfl, rfl⟩ : digits = [] ∧ es = [] := by simpa using hne
      have hzero : digitCount ([] ++ rest) = 0 := digitCount_append hdigits hrest.isDigit_eq_false
      rw [List.nil_append] at hzero
      cases hpoint : pointBelongs rest with
      | true => simp [fractionLength, hpoint, hzero, hrest.exponentLength_eq_zero]
      | false => simp [fractionLength, hpoint, exponentLength]

/-! ### Numbers by their texts -/

namespace NumberParts

theorem isDigit_iff (h : NumberParts ds fs es) :
    (∀ c ∈ ds ++ fs ++ es, c.isDigit) ↔ fs = [] ∧ es = [] := by
  obtain ⟨hds, hfs, hes⟩ := h
  constructor
  · intro hall
    refine ⟨?_, ?_⟩
    · cases hfs with
      | none => rfl
      | some => exact absurd (hall '.' (by simp)) (by decide)
    · cases hes with
      | none => rfl
      | @some e _ _ he =>
        have hdigit := hall e (by simp)
        rcases he with rfl | rfl <;> exact absurd hdigit (by decide)
  · rintro ⟨rfl, rfl⟩
    simpa using hds

theorem isFloatText_eq_false_iff (h : NumberParts ds fs es) :
    Literal.isFloatText (ds ++ fs ++ es) = false ↔ fs = [] ∧ es = [] := by
  rw [← h.isDigit_iff, Literal.isFloatText, List.any_eq_false]
  constructor
  · intro hall
    obtain ⟨-, hfs, hes⟩ := id h
    rw [h.isDigit_iff]
    refine ⟨?_, ?_⟩
    · cases hfs with
      | none => rfl
      | some => exact absurd rfl (hall '.' (by simp))
    · cases hes with
      | none => rfl
      | @some e _ _ he =>
        have hno := hall e (by simp)
        rcases he with rfl | rfl <;> exact absurd rfl hno
  · intro hall c hc
    have hdigit := hall c hc
    simp only [Bool.or_eq_true, beq_iff_eq]
    rintro ((rfl | rfl) | rfl) <;> exact absurd hdigit (by decide)

theorem getLast?_eq_iff (h : NumberParts ds fs es) :
    (ds ++ fs ++ es).getLast? = some '.' ↔ fs = ['.'] ∧ es = [] := by
  -- a number that ends in digits does not end in a point
  have hdigits : ∀ {xs ys : List Char}, ys ≠ [] → (∀ d ∈ ys, d.isDigit) →
      (xs ++ ys).getLast? ≠ some '.' := by
    intro xs ys hne hys hlast
    rw [List.getLast?_append, List.getLast?_eq_some_getLast hne, Option.some_or,
      Option.some.injEq] at hlast
    have hdot := hys _ (List.getLast_mem hne)
    rw [hlast] at hdot
    exact absurd hdot (by decide)
  obtain ⟨hds, hfs, hes⟩ := h
  constructor
  · intro hlast
    cases hes with
    | @some e sign digits _ _ hne hys =>
      rw [← List.cons_append, ← List.append_assoc] at hlast
      exact absurd hlast (hdigits hne hys)
    | none =>
      rw [List.append_nil] at hlast
      cases hfs with
      | none =>
        rw [List.append_nil] at hlast
        exact absurd (hds _ (List.mem_of_getLast? hlast)) (by decide)
      | @some digits hys =>
        cases digits with
        | nil => exact ⟨rfl, rfl⟩
        | cons d digits =>
          rw [List.append_cons] at hlast
          exact absurd hlast (hdigits (List.cons_ne_nil _ _) hys)
  · rintro ⟨rfl, rfl⟩
    simp

end NumberParts

/-! ### The start of a number -/

theorem startsNumber_cons {c : Char} (hc : c ≠ '.') (cs : List Char) :
    startsNumber (c :: cs) = c.isDigit := by
  cases cs <;> simp [startsNumber, hc]

/-- A number that starts with a point goes on with a digit. -/
theorem one_lt_numberLength (h : startsNumber ('.' :: cs)) : 1 < numberLength ('.' :: cs) := by
  cases cs with
  | nil => cases h
  | cons d ds =>
    have hd : d.isDigit := h
    have hdot : d ≠ '.' := by
      rintro rfl
      exact absurd hd (by decide)
    have hpoint : pointBelongs (d :: ds) := by
      simp [pointBelongs, hdot, Text.startsWord_eq_false_of_isDigit hd]
    have hcount : digitCount ('.' :: d :: ds) = 0 := digitCount_cons_of_not_isDigit (by decide) _
    simp only [numberLength, hcount, List.drop_zero, fractionLength, hpoint,
      digitCount_cons_of_isDigit hd, and_self, if_true]
    omega

/-- What follows a number does not tell whether it starts as a number. -/
theorem startsNumber_append {w rest : List Char} (h : startsNumber (w ++ rest))
    (hlen : numberLength (w ++ rest) = w.length) (rest' : List Char) :
    startsNumber (w ++ rest') := by
  match w with
  | [] =>
    have hpos := numberLength_pos h
    rw [hlen] at hpos
    exact absurd hpos (Nat.lt_irrefl 0)
  | [c] =>
    have hc : c ≠ '.' := by
      rintro rfl
      have hlt : 1 < numberLength (['.'] ++ rest) := one_lt_numberLength h
      rw [hlen] at hlt
      exact absurd hlt (Nat.lt_irrefl 1)
    rw [List.singleton_append, startsNumber_cons hc] at h ⊢
    exact h
  | c :: d :: cs =>
    by_cases hc : c = '.'
    · subst hc
      exact h
    · rw [List.cons_append, startsNumber_cons hc] at h ⊢
      exact h

end Lexeme

namespace Stands

open Lexeme

variable {w rest rest' : List Char}

theorem number_iff :
    Stands .number w rest ↔ startsNumber (w ++ rest) ∧ numberLength (w ++ rest) = w.length ∧
      ¬ (w.length = digitCount (w ++ rest) ∧ Word.half ≤ Decimal.value w) := by
  constructor
  · rintro ⟨c, cs, rfl, hbegins⟩
    obtain ⟨hstart, hlen, hfits⟩ := hbegins.of_number
    rw [← List.cons_append, List.take_left] at hfits
    exact ⟨hstart, hlen, hfits⟩
  · rintro ⟨hstart, hlen, hfits⟩
    have hpos := numberLength_pos hstart
    obtain ⟨c, cs, rfl⟩ := List.exists_cons_of_length_pos (hlen ▸ hpos)
    refine ⟨c, cs, rfl, ?_⟩
    have htake : (c :: cs ++ rest).take (numberLength (c :: cs ++ rest)) = c :: cs := by
      rw [hlen, List.take_left]
    have hbegins := @Begins.number c (cs ++ rest) hstart
    rw [← List.cons_append, htake, hlen] at hbegins
    exact hbegins hfits

/-- The three parts of a number that stands somewhere. -/
theorem exists_parts (h : Stands .number w rest) :
    ∃ ds fs es, w = ds ++ fs ++ es ∧ NumberParts ds fs es := by
  obtain ⟨-, hlen, -⟩ := number_iff.mp h
  have := Lexeme.exists_parts (w ++ rest)
  rwa [hlen, List.take_left] at this

/-- A number without a point and an exponent consists of digits. -/
theorem isFloatText_eq_false_iff (h : Stands .number w rest) :
    Literal.isFloatText w = false ↔ ∀ c ∈ w, c.isDigit := by
  obtain ⟨ds, fs, es, rfl, hparts⟩ := h.exists_parts
  rw [hparts.isFloatText_eq_false_iff, hparts.isDigit_iff]

/-- **Numbers.** Where neither a digit nor an exponent follows, a number stands unless it consists
of digits and a fraction follows, or it ends in a point that does not belong to it there. -/
theorem number_iff_of_calm (h : Stands .number w rest) (hrest : Calm rest') :
    Stands .number w rest' ↔ ((∀ c ∈ w, c.isDigit) → fractionLength rest' = 0) ∧
      (w.getLast? = some '.' → pointBelongs rest') := by
  have hparts := h.exists_parts
  obtain ⟨hstart, hlen, hfits⟩ := number_iff.mp h
  have hbounds : numberLength (w ++ rest') = w.length → Stands .number w rest' := by
    refine fun hlen' => number_iff.mpr ⟨startsNumber_append hstart hlen rest', hlen', ?_⟩
    rintro ⟨hcount, hvalue⟩
    refine hfits ⟨?_, hvalue⟩
    -- digits alone are counted as far in front of the first rest
    obtain ⟨hall, -⟩ := length_takeWhile_append_iff.mp hcount.symm
    have hle : digitCount (w ++ rest) ≤ w.length := by
      rw [← hlen, numberLength]
      omega
    refine Nat.le_antisymm ?_ hle
    rw [digitCount, List.takeWhile_append_of_pos hall, List.length_append]
    exact Nat.le_add_right _ _
  have hiff : Stands .number w rest' ↔ numberLength (w ++ rest') = w.length :=
    ⟨fun h' => (number_iff.mp h').2.1, hbounds⟩
  obtain ⟨ds, fs, es, rfl, hparts⟩ := hparts
  rw [hiff, hparts.numberLength_eq_iff hrest, hparts.isDigit_iff, hparts.getLast?_eq_iff, and_imp,
    and_imp]

end Stands

end ShapeFault
