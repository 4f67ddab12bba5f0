import ShapeFault.Proofs.Lexing.Form

/-!
# Longest match

A lexeme is the longest one of its sort that its text begins with. For symbols this compares
spellings, and a word goes on as long as word characters do. A number is the longest text of the
form of a number (`Lexeme.NumberBefore.length_le`) with one exception: directly behind digits a
point is left to what follows if another point or a word follows it, unless an exponent starts there
(`Lexeme.PointLost`).
-/

namespace ShapeFault

open Token (Kind)

namespace Lexeme

/-- Directly behind digits, the point in front of `rest` is no part of a number: another point or a
word follows it, and no exponent does. -/
def PointLost (rest : List Char) : Prop :=
  (∃ c ∈ rest.head?, c = '.' ∨ Text.startsWord c) ∧ ∀ es, Exponent es → es <+: rest → es = []

/-- `NumberBefore w rest` says that `w` has the form of a number, and that the point in it, if it
stands directly behind digits, is not lost in front of `rest`. -/
def NumberBefore (w rest : List Char) : Prop :=
  NumberForm w ∧ ∀ ds cs, w = ds ++ '.' :: cs → ds ≠ [] → (∀ d ∈ ds, d.isDigit) →
    ¬ PointLost (cs ++ rest)

variable {w cs ds rest : List Char}

/-! ### The parts of a number in front of a rest -/

theorem length_le_digitCount (hds : ∀ d ∈ ds, d.isDigit) (rest : List Char) :
    ds.length ≤ digitCount (ds ++ rest) := by
  rw [digitCount, List.takeWhile_append_of_pos hds, List.length_append]
  exact Nat.le_add_right _ _

theorem Exponent.head_of_ne_nil {es : List Char} (h : Exponent es) (hne : es ≠ [])
    (rest : List Char) : ∀ c ∈ (es ++ rest).head?, c.isDigit = false ∧ c ≠ '.' := by
  cases h with
  | none => exact absurd rfl hne
  | some he =>
    rintro c ⟨⟩
    rcases he with rfl | rfl <;> decide

theorem fractionLength_eq_zero (h : ∀ c ∈ cs.head?, c ≠ '.') : fractionLength cs = 0 := by
  cases cs with
  | nil => rfl
  | cons c cs => simp [fractionLength, h c rfl]

/-- There is no exponent exactly if none can be read. -/
theorem exponentLength_eq_zero_iff :
    exponentLength cs = 0 ↔ ∀ es, Exponent es → es <+: cs → es = [] := by
  constructor
  · rintro hzero es hes ⟨rest, rfl⟩
    by_cases hne : es = []
    · exact hne
    · rw [hes.length_append_of_ne_nil hne] at hzero
      exact List.eq_nil_of_length_eq_zero (by omega)
  · intro hall
    have hlen := congrArg List.length (hall _ (exponent_take cs) (List.take_prefix _ _))
    rwa [List.length_take, Nat.min_eq_left (exponentLength_le cs)] at hlen

/-- The point belongs to the digits in front of it unless it is lost. -/
theorem pointBelongs_eq_false_iff : pointBelongs rest = false ↔ PointLost rest := by
  rw [PointLost, ← exponentLength_eq_zero_iff]
  cases rest with
  | nil => simp [pointBelongs]
  | cons c cs => by_cases hc : c = '.' <;> simp [pointBelongs, and_comm, hc]

/-- A point between digits belongs to the number, and so does one in front of digits. -/
theorem not_pointLost_of_isDigit {d : Char} (hd : d.isDigit) (cs : List Char) :
    ¬ PointLost (d :: cs) := by
  rintro ⟨⟨c, hc, hlost⟩, -⟩
  obtain rfl : d = c := by simpa using hc
  rcases hlost with rfl | hword
  · exact absurd hd (by decide)
  · rw [Text.startsWord_eq_false_of_isDigit hd] at hword
    cases hword

theorem fractionLength_of_not_pointLost (h : ¬ PointLost rest) :
    fractionLength ('.' :: rest) = digitCount rest + 1 := by
  have hpoint : pointBelongs rest = true := by
    rwa [← pointBelongs_eq_false_iff, Bool.not_eq_false] at h
  simp [fractionLength, hpoint]

/-! ### The longest number -/

/-- A number that is read does not lose the point behind its digits. -/
theorem numberBefore_of_stands (h : Stands .number w rest) : NumberBefore w rest := by
  refine ⟨(Stands.number_alone_iff.mp h.alone).1, ?_⟩
  rintro ds cs rfl hne hds hlost
  obtain ⟨-, hlen, -⟩ := Stands.number_iff.mp h
  have hpoint : ∀ c ∈ ('.' :: (cs ++ rest)).head?, c.isDigit = false := by
    rintro _ ⟨⟩
    rfl
  have hfraction : fractionLength ('.' :: (cs ++ rest)) = 0 := by
    simp [fractionLength, pointBelongs_eq_false_iff.mpr hlost]
  have hexponent : exponentLength ('.' :: (cs ++ rest)) = 0 := by simp [exponentLength]
  rw [List.append_assoc, List.cons_append, numberLength_append hds hpoint, hfraction,
    List.drop_zero, hexponent, List.length_append, List.length_cons] at hlen
  omega

/-- Digits and an exponent behind them are no longer than what is read of them. -/
theorem Exponent.length_le {es : List Char} (hes : Exponent es) (hds : ∀ d ∈ ds, d.isDigit)
    (rest : List Char) :
    ds.length + es.length ≤ digitCount (ds ++ (es ++ rest)) +
      exponentLength ((ds ++ (es ++ rest)).drop (digitCount (ds ++ (es ++ rest)))) := by
  by_cases hne : es = []
  · subst hne
    exact Nat.le_add_right_of_le (length_le_digitCount hds _)
  · have hhead := hes.head_of_ne_nil hne rest
    rw [digitCount_append hds fun c hc => (hhead c hc).1, List.drop_left,
      hes.length_append_of_ne_nil hne]
    omega

/-- A point with a digit on one side is not lost, unless digits stand in front of it. -/
theorem not_pointLost {ys : List Char} (hys : ∀ d ∈ ys, d.isDigit)
    (hdigit : ∃ d ∈ ds ++ '.' :: ys, d.isDigit) (hds : ds ≠ [] → ¬ PointLost (ys ++ rest)) :
    ¬ PointLost (ys ++ rest) := by
  cases ds with
  | cons d ds => exact hds (List.cons_ne_nil d ds)
  | nil =>
    obtain ⟨d, hd, hisDigit⟩ := hdigit
    cases ys with
    | nil =>
      obtain rfl := List.mem_singleton.mp hd
      exact absurd hisDigit (by decide)
    | cons y ys => exact not_pointLost_of_isDigit (hys y List.mem_cons_self) _

/-- **Longest numbers.** No text that is a number in front of its rest is longer than the number
that is read. -/
theorem NumberBefore.length_le (h : NumberBefore w rest) :
    w.length ≤ numberLength (w ++ rest) := by
  obtain ⟨⟨ds, fs, es, rfl, ⟨hds, hfs, hes⟩, hdigit⟩, hpoint⟩ := h
  cases hfs with
  | none =>
    by_cases hne : es = []
    · subst hne
      have hle := length_le_digitCount hds rest
      simp only [List.append_nil, numberLength]
      omega
    · -- behind the digits an exponent stands, and no fraction
      have hhead := hes.head_of_ne_nil hne rest
      have hfraction := fractionLength_eq_zero fun c hc => (hhead c hc).2
      have hexponent := hes.length_append_of_ne_nil hne rest
      have hsplit : ds ++ [] ++ es ++ rest = ds ++ (es ++ rest) := by simp
      rw [hsplit, numberLength_append hds fun c hc => (hhead c hc).1, hfraction, List.drop_zero,
        hexponent]
      simp only [List.length_append, List.length_nil]
      omega
  | @some ys hys =>
    have hlost : ¬ PointLost (ys ++ (es ++ rest)) := by
      refine not_pointLost hys hdigit fun hne => ?_
      rw [← List.append_assoc]
      exact hpoint ds (ys ++ es) (by simp) hne hds
    have hhead : ∀ c ∈ ('.' :: (ys ++ (es ++ rest))).head?, c.isDigit = false := by
      rintro _ ⟨⟩
      rfl
    have hsplit : ds ++ '.' :: ys ++ es ++ rest = ds ++ '.' :: (ys ++ (es ++ rest)) := by simp
    rw [hsplit, numberLength_append hds hhead, fractionLength_of_not_pointLost hlost,
      List.drop_succ_cons]
    have hle := hes.length_le hys rest
    simp only [List.length_append, List.length_cons]
    omega

end Lexeme

/-! ### Maximal lexemes -/

/-- **Longest match**: in front of `rest`, nothing longer starts where the lexeme `w` of kind `k`
does. -/
structure Token.Kind.Maximal (k : Kind) (w rest : List Char) : Prop where
  /-- no longer symbol stands there -/
  symbol : ∀ l ∈ punctuation, l.spelling.toList <+: w ++ rest → l.spelling.toList.length ≤ w.length
  /-- a name or a keyword takes all word characters -/
  word : k.IsWord → ∀ c ∈ rest.head?, Text.continuesWord c = false
  /-- a number is one where it stands, and the longest one -/
  number : k = .number → Lexeme.NumberBefore w rest ∧
    ∀ w' rest', w' ++ rest' = w ++ rest → Lexeme.NumberBefore w' rest' → w'.length ≤ w.length

namespace Begins

variable {c : Char} {cs : List Char} {k : Kind} {n : Nat}

theorem atFront?_eq (h : Begins c cs k n) (hk : k ∈ Kind.punctuation) :
    Kind.atFront? (c :: cs) = some k := by
  cases h with
  | number | string => exact absurd hk (by decide)
  | word => exact absurd (Kind.isWord_ofWord _) (Kind.not_isWord_of_mem_punctuation hk)
  | symbol _ h => exact h

end Begins

namespace Stands

variable {k l : Kind} {w rest : List Char}

/-- No symbol starts with a number, a string or a word. -/
theorem not_prefix_spelling (h : Stands k w rest) (hk : k ∉ Kind.punctuation)
    (hl : l ∈ Kind.punctuation) : ¬ w <+: l.spelling.toList := by
  rintro ⟨rest', heq⟩
  have hall : ∀ l ∈ Kind.punctuation, Lexeme.startsNumber l.spelling.toList = false ∧
      (l.spelling.toList.head?.all fun d => decide (¬ (d = '"' ∨ d = '\'') ∧
        Text.startsWord d = false)) = true := by decide
  obtain ⟨hnumber, hhead⟩ := hall l hl
  rw [← heq] at hnumber hhead
  obtain ⟨c, cs, rfl, hbegins⟩ := id h
  have hc := of_decide_eq_true (p := ¬ (c = '"' ∨ c = '\'') ∧ Text.startsWord c = false) hhead
  rcases h.kind_cases with rfl | rfl | hword | hsymbol
  · obtain ⟨hstart, hlen, -⟩ := number_iff.mp h
    rw [Lexeme.startsNumber_append hstart hlen rest'] at hnumber
    cases hnumber
  · exact hc.1 hbegins.of_string.1
  · rw [(hbegins.of_isWord hword).1] at hc
    cases hc.2
  · exact hk hsymbol

/-- The lexeme that a text begins with is maximal. -/
theorem maximal (h : Stands k w rest) : k.Maximal w rest where
  symbol l hl hpre := by
    by_cases hk : k ∈ Kind.punctuation
    · have hspelling := h.eq_spelling (Or.inl hk)
      obtain ⟨c, cs, hw, hbegins⟩ := h
      have hfront := hbegins.atFront?_eq hk
      rw [← List.cons_append, ← hw] at hfront
      have hle := (Kind.atFront?_eq_some_iff.mp hfront).2.2 l hl hpre
      rwa [hspelling, String.length_toList, String.length_toList]
    · refine Nat.le_of_not_lt fun hlt => h.not_prefix_spelling hk hl ?_
      exact List.prefix_of_prefix_length_le (List.prefix_append w rest) hpre (Nat.le_of_lt hlt)
  word hk := ((word_iff hk).mp h).2.2.1
  number := by
    rintro rfl
    refine ⟨Lexeme.numberBefore_of_stands h, fun w' rest' heq hw' => ?_⟩
    have hle := hw'.length_le
    rwa [heq, (number_iff.mp h).2.1] at hle

end Stands

end ShapeFault
