import ShapeFault.Proofs.Lexing.Lexes

/-!
# What a text begins with

`Front.of` decides by the first characters of a text which lexeme stands there. Here each kind of
lexeme gets its own description: a word is a run of word characters, a string a run up to its
closing quote, and an operator or a punctuation mark is the longest spelling that stands there
(`Kind.atFront?_eq_some_iff`). From these follows what may come behind a lexeme without changing it
(`Stands`), and when a text made of a lexeme and a rest consists of that lexeme and the lexemes of
the rest (`lexes_append_iff`).
-/

namespace ShapeFault

open Token (Kind)

/-! ### Checks of single characters -/

namespace Text

variable {p : Char → Prop} [DecidablePred p]

/-- A statement about the characters of a list can be checked on the list. -/
theorem forall_of_all {cs : List Char} (h : (cs.all fun c => decide (p c)) = true) :
    ∀ c ∈ cs, p c := by
  simpa using h

theorem exists_of_any {o : Option Char} (h : (o.any fun c => decide (p c)) = true) :
    ∃ c ∈ o, p c := by
  cases o with
  | none => cases h
  | some c => exact ⟨c, rfl, of_decide_eq_true h⟩

end Text

/-! ### Blanks and comments -/

/-- No blank and not the sign of a comment. -/
def Solid (c : Char) : Prop :=
  Text.isBlank c = false ∧ c ≠ '#'

namespace Lexeme

theorem skip_of_solid {c : Char} (h : Solid c) (cs : List Char) : skip (c :: cs) = c :: cs := by
  simp [skip, triviaLength, h.1, h.2]

theorem skip_blank {c : Char} (h : Text.isBlank c) (cs : List Char) : skip (c :: cs) = skip cs := by
  simp [skip, triviaLength, h]

/-- What is left behind blanks and comments starts with a solid character. -/
theorem solid_of_drop {cs rest : List Char} {c : Char} {inComment : Bool}
    (h : cs.drop (triviaLength inComment cs) = c :: rest) : Solid c := by
  induction cs generalizing inComment with
  | nil => cases h
  | cons d ds ih =>
    rw [triviaLength] at h
    split at h
    · exact ih h
    · split at h
      · exact ih h
      · split at h
        · exact ih h
        · rename_i hblank hne
          cases h
          exact ⟨by simpa using hblank, hne⟩

theorem solid_of_skip {cs rest : List Char} {c : Char} (h : skip cs = c :: rest) : Solid c :=
  solid_of_drop h

end Lexeme

theorem Lexes.blank_iff {c : Char} {cs : List Char} {ws : List (Kind × String)}
    (h : Text.isBlank c) : Lexes (c :: cs) ws ↔ Lexes cs ws := by
  have hskip := Lexeme.skip_blank h cs
  constructor
  · intro hc
    cases hc with
    | done hd => exact .done (hskip ▸ hd)
    | token hs hf hr => exact .token (hskip ▸ hs) hf hr
  · intro hc
    cases hc with
    | done hd => exact .done (hskip.trans hd)
    | token hs hf hr => exact .token (hskip.trans hs) hf hr

/-! ### The longest spelling -/

namespace Token.Kind

/-- The kinds that are spelled with symbols have different spellings. -/
theorem eq_of_spelling_eq {k l : Kind} (hk : k ∈ punctuation) (hl : l ∈ punctuation)
    (h : k.spelling = l.spelling) : k = l := by
  revert h
  revert l
  revert k
  decide

/-- **Longest match.** The operator or punctuation mark at the front of a text is the one with the
longest spelling that stands there. -/
theorem atFront?_eq_some_iff {cs : List Char} {k : Kind} :
    atFront? cs = some k ↔ k ∈ punctuation ∧ k.spelling.toList <+: cs ∧
      ∀ l ∈ punctuation, l.spelling.toList <+: cs → l.spelling.length ≤ k.spelling.length := by
  have hfound : ∀ {k : Kind}, atFront? cs = some k → k ∈ punctuation ∧ k.spelling.toList <+: cs ∧
      ∀ l ∈ punctuation, l.spelling.toList <+: cs → l.spelling.length ≤ k.spelling.length := by
    intro k h
    obtain ⟨hk, before, behind, hsplit, hbefore⟩ := List.find?_eq_some_iff_append.mp h
    -- no earlier spelling stands there, and the later ones are no longer
    have hsorted := punctuation_sorted
    rw [hsplit, List.pairwise_append, List.pairwise_cons] at hsorted
    refine ⟨by rw [hsplit]; simp, List.isPrefixOf_iff_prefix.mp hk, fun l hl hpre => ?_⟩
    rw [hsplit, List.mem_append, List.mem_cons] at hl
    rcases hl with hl | rfl | hl
    · have hno := hbefore l hl
      rw [List.isPrefixOf_iff_prefix.mpr hpre] at hno
      cases hno
    · exact Nat.le_refl _
    · exact hsorted.2.1.1 l hl
  refine ⟨hfound, fun ⟨hk, hpre, hlongest⟩ => ?_⟩
  cases hc : atFront? cs with
  | none =>
    have := List.find?_eq_none.mp hc k hk
    exact absurd (List.isPrefixOf_iff_prefix.mpr hpre) this
  | some l =>
    obtain ⟨hl, hpre', hlongest'⟩ := hfound hc
    have hlen : l.spelling.length = k.spelling.length :=
      Nat.le_antisymm (hlongest l hl hpre') (hlongest' k hk hpre)
    rw [← String.length_toList, ← String.length_toList] at hlen
    have heq : l.spelling.toList = k.spelling.toList :=
      (List.prefix_of_prefix_length_le hpre' hpre (Nat.le_of_eq hlen)).eq_of_length hlen
    rw [eq_of_spelling_eq hl hk (String.toList_inj.mp heq)]

/-- The character `c` behind the spelling of `k` begins or continues a longer spelling. -/
def Extends (k : Kind) (c : Char) : Prop :=
  ∃ l ∈ punctuation, k.spelling.toList ++ [c] <+: l.spelling.toList

instance (k : Kind) (c : Char) : Decidable (k.Extends c) :=
  inferInstanceAs (Decidable (∃ l ∈ punctuation, _))

/-- A spelling stands at the front unless the character behind it extends it. -/
theorem atFront?_spelling_append {k : Kind} (hk : k ∈ punctuation) {rest : List Char}
    (h : ∀ c ∈ rest.head?, ¬ k.Extends c) : atFront? (k.spelling.toList ++ rest) = some k := by
  refine atFront?_eq_some_iff.mpr ⟨hk, List.prefix_append _ _, fun l hl hpre => ?_⟩
  rw [← String.length_toList, ← String.length_toList]
  refine Nat.le_of_not_lt fun hlt => ?_
  cases rest with
  | nil =>
    rw [List.append_nil] at hpre
    exact absurd hpre.length_le (Nat.not_le_of_lt hlt)
  | cons c cs =>
    -- a longer spelling goes on with the first character of the rest
    have hcons : k.spelling.toList ++ [c] <+: k.spelling.toList ++ c :: cs := ⟨cs, by simp⟩
    refine h c rfl ⟨l, hl, List.prefix_of_prefix_length_le hcons hpre ?_⟩
    rw [List.length_append]
    exact hlt

end Token.Kind

/-! ### The four forms of lexemes -/

theorem Text.startsWord_eq_false_of_isBlank {c : Char} (h : isBlank c) : startsWord c = false := by
  -- the blanks are few, so they can be checked one by one
  have hall : ∀ n ∈ blanks, startsWord (Char.ofNat n) = false := by decide +kernel
  have hc := hall c.toNat (by simpa [isBlank] using h)
  rwa [Char.ofNat_toNat] at hc

/-- `Begins c cs k n` says that the text with first character `c` and other characters `cs` begins
with a lexeme of kind `k` and length `n`. -/
inductive Begins (c : Char) (cs : List Char) : Kind → Nat → Prop where
  | number (h : Lexeme.startsNumber (c :: cs))
      (hfits : ¬ (Lexeme.numberLength (c :: cs) = Lexeme.digitCount (c :: cs) ∧
        Word.half ≤ Decimal.value ((c :: cs).take (Lexeme.numberLength (c :: cs))))) :
      Begins c cs .number (Lexeme.numberLength (c :: cs))
  | string {n : Nat} (hquote : c = '"' ∨ c = '\'') (htail : Lexeme.stringTail c cs = (n, true)) :
      Begins c cs .string (n + 1)
  | word (h : Text.startsWord c) :
      Begins c cs (Kind.ofWord (String.ofList ((c :: cs).take (Lexeme.wordLength (c :: cs)))))
        (Lexeme.wordLength (c :: cs))
  | symbol {k : Kind} (hnumber : Lexeme.startsNumber (c :: cs) = false)
      (h : Kind.atFront? (c :: cs) = some k) : Begins c cs k k.spelling.length

namespace Begins

variable {c : Char} {cs : List Char} {k : Kind} {n : Nat}

theorem startsNumber_of_quote (h : c = '"' ∨ c = '\'') :
    Lexeme.startsNumber (c :: cs) = false := by
  rcases h with rfl | rfl <;> cases cs <;> rfl

theorem startsNumber_of_startsWord (h : Text.startsWord c) :
    Lexeme.startsNumber (c :: cs) = false := by
  have hdot : c ≠ '.' := by
    rintro rfl
    revert h
    decide
  have hdigit : c.isDigit = false := by
    rw [Bool.eq_false_iff]
    intro hd
    rw [Text.startsWord_eq_false_of_isDigit hd] at h
    cases h
  unfold Lexeme.startsNumber
  split
  · rename_i heq
    exact absurd (List.cons.inj heq).1 hdot
  · rename_i heq
    rw [← (List.cons.inj heq).1]
    exact hdigit
  · rfl

theorem not_quote_of_startsWord (h : Text.startsWord c) : ¬ (c = '"' ∨ c = '\'') := by
  rintro (rfl | rfl) <;> revert h <;> decide

/-- No symbol starts like a string, a word, a blank or a comment. -/
theorem of_atFront? (h : Kind.atFront? (c :: cs) = some k) :
    ¬ (c = '"' ∨ c = '\'') ∧ Text.startsWord c = false ∧ Solid c := by
  obtain ⟨hk, hpre, -⟩ := Kind.atFront?_eq_some_iff.mp h
  have hall : ∀ k ∈ Kind.punctuation, (k.spelling.toList.head?.any fun d => decide
      (¬ (d = '"' ∨ d = '\'') ∧ Text.startsWord d = false ∧ Text.isBlank d = false ∧ d ≠ '#')) =
        true := by
    decide
  obtain ⟨d, hd, hrest⟩ := Text.exists_of_any (hall k hk)
  obtain ⟨ds, hds⟩ : ∃ ds, k.spelling.toList = d :: ds := by
    cases heq : k.spelling.toList with
    | nil => simp [heq] at hd
    | cons x xs =>
      simp only [heq, List.head?_cons, Option.mem_def, Option.some.injEq] at hd
      exact ⟨xs, by rw [hd]⟩
  obtain ⟨rest, hrest'⟩ := hpre
  rw [hds] at hrest'
  rw [← (List.cons.inj hrest').1]
  exact hrest

end Begins

theorem Front.of_eq_token_iff {c : Char} {cs : List Char} {k : Kind} {n : Nat} :
    Front.of c cs = .token k n ↔ Begins c cs k n := by
  constructor
  · intro h
    unfold of at h
    split at h
    · rename_i hnumber
      simp only at h
      split at h
      · cases h
      · rename_i hfits
        cases h
        exact .number hnumber hfits
    · rename_i hnumber
      split at h
      · rename_i hquote
        split at h
        · rename_i htail
          cases h
          exact .string hquote htail
        · cases h
      · split at h
        · rename_i hword
          cases h
          exact .word hword
        · split at h
          · rename_i hk
            cases h
            exact .symbol (by simpa using hnumber) hk
          · cases h
  · intro h
    unfold of
    cases h with
    | number h hfits => simp only [h, if_true, hfits, if_false]
    | string hquote htail =>
      simp only [Begins.startsNumber_of_quote hquote, Bool.false_eq_true, if_false, hquote,
        if_true, htail]
    | word h =>
      simp only [Begins.startsNumber_of_startsWord h, Bool.false_eq_true, if_false,
        Begins.not_quote_of_startsWord h, h, if_true]
    | symbol hnumber h =>
      obtain ⟨hquote, hword, -⟩ := Begins.of_atFront? h
      simp only [hnumber, Bool.false_eq_true, if_false, hquote, hword, h]

/-! ### Lengths -/

namespace Lexeme

theorem digitCount_le (cs : List Char) : digitCount cs ≤ cs.length :=
  (List.takeWhile_prefix _).length_le

theorem signLength_le (cs : List Char) : signLength cs ≤ cs.length := by
  unfold signLength
  split
  · split <;> simp
  · exact Nat.le_refl _

theorem exponentLength_le (cs : List Char) : exponentLength cs ≤ cs.length := by
  unfold exponentLength
  split
  · rename_i cs
    split
    · have hdigits := digitCount_le (cs.drop (signLength cs))
      have hsign := signLength_le cs
      rw [List.length_drop] at hdigits
      simp only [List.length_cons]
      split <;> omega
    · exact Nat.zero_le _
  · exact Nat.le_refl _

theorem fractionLength_le (cs : List Char) : fractionLength cs ≤ cs.length := by
  unfold fractionLength
  split
  · rename_i cs
    split
    · exact Nat.succ_le_succ (digitCount_le cs)
    · exact Nat.zero_le _
  · exact Nat.le_refl _

theorem numberLength_le (cs : List Char) : numberLength cs ≤ cs.length := by
  have hdigits := digitCount_le cs
  have hfraction := fractionLength_le (cs.drop (digitCount cs))
  have hexponent := exponentLength_le
    (cs.drop (digitCount cs + fractionLength (cs.drop (digitCount cs))))
  simp only [List.length_drop] at hfraction hexponent
  simp only [numberLength]
  omega

theorem stringTail_le (quote : Char) (cs : List Char) : (stringTail quote cs).1 ≤ cs.length := by
  fun_induction stringTail quote cs <;> simp_all <;> omega

theorem wordLength_le (cs : List Char) : wordLength cs ≤ cs.length :=
  (List.takeWhile_prefix _).length_le

end Lexeme

namespace Begins

variable {c : Char} {cs : List Char} {k : Kind} {n : Nat}

/-- A lexeme lies within its text. -/
theorem length_le (h : Begins c cs k n) : n ≤ (c :: cs).length := by
  cases h with
  | number => exact Lexeme.numberLength_le _
  | string hquote htail =>
    have := Lexeme.stringTail_le c cs
    rw [htail] at this
    exact Nat.succ_le_succ this
  | word => exact Lexeme.wordLength_le _
  | symbol _ h =>
    have := (Kind.atFront?_eq_some_iff.mp h).2.1.length_le
    rwa [String.length_toList] at this

/-- A lexeme starts with a solid character. -/
theorem solid (h : Begins c cs k n) : Solid c := by
  cases h with
  | number h =>
    have hc : c.isDigit ∨ c = '.' := by
      unfold Lexeme.startsNumber at h
      split at h
      · rename_i heq
        exact Or.inr (List.cons.inj heq).1
      · rename_i heq
        rw [← (List.cons.inj heq).1] at h
        exact Or.inl h
      · cases h
    rcases hc with hc | rfl
    · obtain ⟨hle, hge⟩ := Text.toNat_of_isDigit hc
      have hall : ∀ n ∈ Text.blanks, ¬ (48 ≤ n ∧ n ≤ 57) := by decide
      refine ⟨?_, ?_⟩
      · rw [Bool.eq_false_iff]
        intro hb
        exact hall c.toNat (by simpa [Text.isBlank] using hb) ⟨hle, hge⟩
      · rintro rfl
        exact absurd hle (by decide)
    · exact ⟨by decide, by decide⟩
  | string hquote =>
    rcases hquote with rfl | rfl <;> exact ⟨by decide, by decide⟩
  | word h =>
    refine ⟨?_, ?_⟩
    · rw [Bool.eq_false_iff]
      intro hb
      rw [Text.startsWord_eq_false_of_isBlank hb] at h
      cases h
    · rintro rfl
      revert h
      decide
  | symbol _ h => exact (of_atFront? h).2.2

end Begins

/-! ### Lexemes in front of a rest -/

/-- `Stands k w rest` says that a text that starts with `w` and goes on with `rest` begins with the
lexeme `w` of kind `k`. -/
def Stands (k : Kind) (w rest : List Char) : Prop :=
  ∃ c cs, w = c :: cs ∧ Begins c (cs ++ rest) k w.length

/-- **A lexeme and a rest.** A text consists of a lexeme and those of the rest exactly if the lexeme
stands in front of the rest. -/
theorem lexes_append_iff {k : Kind} {w : String} {rest : List Char} {ws : List (Kind × String)} :
    Lexes (w.toList ++ rest) ((k, w) :: ws) ↔ Stands k w.toList rest ∧ Lexes rest ws := by
  constructor
  · intro h
    generalize htext : w.toList ++ rest = text at h
    generalize hlexemes : (k, w) :: ws = lexemes at h
    cases h with
    | done => cases hlexemes
    | @token _ ds c k' n ws' hskip hfront hrest =>
      simp only [List.cons.injEq, Prod.mk.injEq] at hlexemes
      obtain ⟨⟨rfl, hw⟩, rfl⟩ := hlexemes
      have hbegins := Front.of_eq_token_iff.mp hfront
      have hpos := Front.length_pos_of_eq_token hfront
      have hlist : w.toList = (c :: ds).take n := by rw [hw, String.toList_ofList]
      obtain ⟨m, rfl⟩ : ∃ m, n = m + 1 := ⟨n - 1, by omega⟩
      rw [List.take_succ_cons] at hlist
      -- the first character of the lexeme is solid, so nothing was skipped
      have hsame : c :: ds = w.toList ++ rest := by
        rw [← htext, hlist, List.cons_append] at hskip
        rw [hlist, ← hskip, List.cons_append, Lexeme.skip_of_solid (Lexeme.solid_of_skip hskip)]
      have hlen : w.toList.length = m + 1 := by
        have := hbegins.length_le
        rw [hlist, List.length_cons, List.length_take]
        simp only [List.length_cons] at this
        omega
      refine ⟨⟨c, ds.take m, hlist, ?_⟩, ?_⟩
      · have hds : ds = ds.take m ++ rest := by
          rw [hlist, List.cons_append] at hsame
          exact (List.cons.inj hsame).2
        rw [← hds, hlen]
        exact hbegins
      · rw [hsame, ← hlen, List.drop_left] at hrest
        exact hrest
  · rintro ⟨⟨c, cs, hw, hbegins⟩, hrest⟩
    have hskip : Lexeme.skip (w.toList ++ rest) = c :: (cs ++ rest) := by
      rw [hw]
      exact Lexeme.skip_of_solid hbegins.solid _
    have hdrop : (c :: (cs ++ rest)).drop w.toList.length = rest := by
      rw [← List.cons_append, ← hw, List.drop_left]
    have htake : String.ofList ((c :: (cs ++ rest)).take w.toList.length) = w := by
      rw [← List.cons_append, ← hw, List.take_left, String.ofList_toList]
    have := Lexes.token hskip (Front.of_eq_token_iff.mpr hbegins) (hdrop.symm ▸ hrest)
    rwa [htake] at this

end ShapeFault
