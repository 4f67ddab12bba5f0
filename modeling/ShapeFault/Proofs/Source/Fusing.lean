import ShapeFault.Proofs.Source.Genuine

/-!
# Members of numbers

The source of a member puts a point and a name right behind its object. If the object is a number,
the point can become a part of it: an integer takes the point as that of a fraction if the name
reads as an exponent, and a float that ends in a point loses it in front of another one.
`Node.Fuses` names these members, and `Token.Genuine.lexes_member_iff` says that they are the only
ones that do not read as they were read before.
-/

namespace ShapeFault

open Token (Kind)

/-- The name starts with the letter of an exponent and a digit. -/
def StartsExponent (id : List Char) : Prop :=
  ∃ e d cs, id = e :: d :: cs ∧ (e = 'e' ∨ e = 'E') ∧ d.isDigit

/-- **Fusing members**: the number and the point in the source of the member do not read as a number
and a point. -/
inductive Node.Fuses : Node → Prop where
  | int {text : String} {value : Int} {id : String} (h : StartsExponent id.toList) :
      Fuses (.member (.literal (.int text value)) id)
  | float {text : String} {value : Float} {id : String} (h : text.toList.getLast? = some '.') :
      Fuses (.member (.literal (.float text value)) id)

/-- The numbers among the trees. -/
def Node.isNumber : Node → Bool
  | literal (.int ..) | literal (.float ..) => true
  | _ => false

namespace Lexeme

variable {id rest : List Char}

theorem exponentLength_cons_ne_zero_iff {c : Char} {cs : List Char}
    (hsign : ∀ d ∈ cs.head?, d ≠ '+' ∧ d ≠ '-') :
    exponentLength (c :: cs) ≠ 0 ↔ (c = 'e' ∨ c = 'E') ∧ ∃ d ∈ cs.head?, d.isDigit := by
  have hzero : signLength cs = 0 := by
    cases cs with
    | nil => rfl
    | cons d ds => simp [signLength, hsign d rfl]
  simp only [exponentLength, hzero, List.drop_zero]
  by_cases hc : c = 'e' ∨ c = 'E'
  · rw [if_pos hc]
    cases cs with
    | nil => simp [digitCount]
    | cons d ds =>
      by_cases hd : d.isDigit
      · simp [digitCount_cons_of_isDigit hd, hc, hd]
      · simp [digitCount_cons_of_not_isDigit hd, hd]
  · simp [hc]

/-- A point and a name behind digits start a fraction exactly if the name reads as an exponent. -/
theorem fractionLength_point_eq_zero_iff (hstart : ∃ c ∈ id.head?, Text.startsWord c)
    (hid : ∀ c ∈ id, Text.continuesWord c)
    (hrest : Separated rest) : fractionLength ('.' :: (id ++ rest)) = 0 ↔ ¬ StartsExponent id := by
  obtain ⟨c, hhead, hc⟩ := hstart
  cases id with
  | nil => cases hhead
  | cons c' cs =>
    obtain rfl : c' = c := by simpa using hhead
    have hsign : ∀ d ∈ (cs ++ rest).head?, d ≠ '+' ∧ d ≠ '-' := by
      cases cs with
      | nil => exact hrest.not_sign
      | cons d ds =>
        rintro _ ⟨⟩
        have hd := hid d (by simp)
        constructor <;> rintro rfl <;> exact absurd hd (by decide)
    -- a name takes the point for itself unless it reads as an exponent
    have hbelongs : pointBelongs (c' :: (cs ++ rest)) = true ↔
        exponentLength (c' :: (cs ++ rest)) ≠ 0 := by
      simp [pointBelongs, hc]
    have hzero : fractionLength ('.' :: (c' :: cs ++ rest)) = 0 ↔
        ¬ pointBelongs (c' :: (cs ++ rest)) = true := by
      simp [fractionLength]
    rw [hzero, hbelongs, exponentLength_cons_ne_zero_iff hsign]
    refine not_congr ⟨?_, ?_⟩
    · rintro ⟨he, d, hd, hdigit⟩
      cases cs with
      | nil =>
        rw [hrest.isDigit_eq_false d hd] at hdigit
        cases hdigit
      | cons d' ds =>
        obtain rfl : d' = d := by simpa using hd
        exact ⟨c', d', ds, rfl, he, hdigit⟩
    · rintro ⟨e, d, ds, heq, he, hdigit⟩
      cases heq
      exact ⟨he, d, rfl, hdigit⟩

end Lexeme

/-- The literal of a number that was read is an integer if it is written with digits only, and a
float otherwise. -/
theorem Literal.Written.number_cases {t : Token} {l : Literal} (h : l.Written t)
    (ht : t.Genuine) (hk : t.kind = .number) :
    (∃ v, l = .int t.text v ∧ ∀ c ∈ t.text.toList, c.isDigit) ∨
      (∃ v, l = .float t.text v ∧ ¬ ∀ c ∈ t.text.toList, c.isDigit) := by
  obtain ⟨rest, hstands⟩ := ht
  rw [hk] at hstands
  have hiff := hstands.isFloatText_eq_false_iff
  cases h with
  | number _ hl =>
    simp only [ofNumber?] at hl
    split at hl
    · rename_i hfloat
      obtain ⟨v, -, rfl⟩ := Option.map_eq_some_iff.mp hl
      exact Or.inr ⟨v, rfl, fun hall => by rw [hiff.mpr hall] at hfloat; cases hfloat⟩
    · rename_i hfloat
      obtain ⟨v, -, rfl⟩ := Option.map_eq_some_iff.mp hl
      exact Or.inl ⟨v, rfl, hiff.mp (by simpa using hfloat)⟩
  | string h | trueWord h | falseWord h | noneWord h =>
    rw [hk] at h
    cases h

/-- The members of a number that fuse, by the text of the number. -/
theorem Literal.Written.not_fuses_iff {t : Token} {l : Literal} (h : l.Written t)
    (ht : t.Genuine) (hk : t.kind = .number) (id : String) :
    ¬ (Node.member (.literal l) id).Fuses ↔
      ((∀ c ∈ t.text.toList, c.isDigit) → ¬ StartsExponent id.toList) ∧
        t.text.toList.getLast? ≠ some '.' := by
  rcases h.number_cases ht hk with ⟨v, rfl, hall⟩ | ⟨v, rfl, hsome⟩
  · have hlast : t.text.toList.getLast? ≠ some '.' := by
      intro hlast
      exact absurd (hall _ (List.mem_of_getLast? hlast)) (by decide)
    constructor
    · exact fun hno => ⟨fun _ hid => hno (.int hid), hlast⟩
    · rintro ⟨hno, -⟩ ⟨hid⟩
      exact hno hall hid
  · constructor
    · exact fun hno => ⟨fun hall => absurd hall hsome, fun hlast => hno (.float hlast)⟩
    · rintro ⟨-, hno⟩ ⟨⟩
      contradiction

namespace Token.Genuine

variable {t d s : Token} {rest : List Char} {ws : List (Kind × String)}

/-- The point and the name of a member. -/
theorem lexes_point_iff (hd : d.Genuine) (hdk : d.kind = .dot) (hs : s.Genuine)
    (hsk : s.kind = .name) (hrest : Separated rest) :
    Lexes ('.' :: (s.text.toList ++ rest)) (d.lexeme :: s.lexeme :: ws) ↔ Lexes rest ws := by
  have hword : s.kind.IsWord := Or.inl hsk
  obtain ⟨⟨c, hc, hstart⟩, -⟩ := hs.word hword
  have hdot : Stands .dot ['.'] (s.text.toList ++ rest) := by
    obtain ⟨cs, hcs⟩ := List.head?_eq_some_iff.mp hc
    rw [hcs]
    refine .dot ?_
    rintro _ ⟨⟩
    constructor
    · rw [Bool.eq_false_iff]
      intro hdigit
      rw [Text.startsWord_eq_false_of_isDigit hdigit] at hstart
      cases hstart
    · rintro rfl
      revert hstart
      decide
  rw [← List.singleton_append]
  exact (hd.lexes_spelling_iff hdk (Or.inl (by decide)) hdot).trans
    (hs.lexes_word_iff hword hrest.continuesWord_eq_false)

/-- **Members of numbers.** The source of a member of a number reads as the tokens of the member
exactly if they do not fuse. -/
theorem lexes_member_iff {l : Literal} (hl : l.Written t) (ht : t.Genuine)
    (htk : t.kind = .number) (hd : d.Genuine) (hdk : d.kind = .dot) (hs : s.Genuine)
    (hsk : s.kind = .name) (hrest : Separated rest) :
    Lexes (t.text.toList ++ '.' :: (s.text.toList ++ rest))
        (t.lexeme :: d.lexeme :: s.lexeme :: ws) ↔
      ¬ (Node.member (.literal l) s.text).Fuses ∧ Lexes rest ws := by
  obtain ⟨hstart, hall⟩ := hs.word (Or.inl hsk)
  have hcalm : Lexeme.Calm ('.' :: (s.text.toList ++ rest)) := by
    rintro _ ⟨⟩
    decide
  have hlost : Lexeme.pointBelongs ('.' :: (s.text.toList ++ rest)) = false := rfl
  rw [ht.lexes_number_iff htk hcalm, hl.not_fuses_iff ht htk, hlost,
    Lexeme.fractionLength_point_eq_zero_iff hstart hall hrest,
    hd.lexes_point_iff hdk hs hsk hrest]
  simp only [Bool.false_eq_true, imp_false]

end Token.Genuine

end ShapeFault
