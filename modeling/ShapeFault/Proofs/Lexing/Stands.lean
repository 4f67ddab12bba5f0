import ShapeFault.Proofs.Lexing.Front

/-!
# What may follow a lexeme

A lexeme that stands in front of one rest stands in front of another one if the first characters of
that rest do not extend it. For a word these are the word characters, for a symbol those of
`Kind.Extends`, and a string can be followed by anything. Numbers have a module of their own.
-/

namespace ShapeFault

open Token (Kind)

/-- What a text begins with stands in front of what is left of it. -/
theorem Begins.stands {c : Char} {cs : List Char} {k : Kind} {n : Nat} (h : Begins c cs k n) :
    Stands k ((c :: cs).take n) ((c :: cs).drop n) := by
  have hpos := Front.length_pos_of_eq_token (Front.of_eq_token_iff.mpr h)
  obtain ⟨m, rfl⟩ : ∃ m, n = m + 1 := ⟨n - 1, by omega⟩
  refine ⟨c, cs.take m, List.take_succ_cons, ?_⟩
  rw [List.drop_succ_cons, List.take_append_drop, List.length_take, Nat.min_eq_left h.length_le]
  exact h

/-- Each lexeme of a text stands in front of some rest. -/
theorem Lexes.exists_stands {cs : List Char} {ws : List (Kind × String)} (h : Lexes cs ws) :
    ∀ w ∈ ws, ∃ rest, Stands w.1 w.2.toList rest := by
  induction h with
  | done => simp
  | @token cs ds c k n ws hskip hfront _ ih =>
    rintro w (_ | ⟨_, hw⟩)
    · exact ⟨(c :: ds).drop n, by
        simpa only [String.toList_ofList] using (Front.of_eq_token_iff.mp hfront).stands⟩
    · exact ih w hw

/-- A run of characters of a class is as long as `w` if `w` is in the class and what follows is
not. -/
theorem length_takeWhile_append_iff {p : Char → Bool} {w rest : List Char} :
    ((w ++ rest).takeWhile p).length = w.length ↔
      (∀ c ∈ w, p c) ∧ ∀ c ∈ rest.head?, p c = false := by
  induction w with
  | nil => cases rest <;> simp [List.takeWhile_cons]
  | cons c cs ih =>
    rw [List.cons_append, List.takeWhile_cons]
    split
    · rename_i hc
      simp only [List.length_cons, Nat.add_right_cancel_iff, ih, List.forall_mem_cons, hc, true_and]
    · rename_i hc
      simp [hc]

/-- The kinds of words. -/
def Token.Kind.IsWord (k : Kind) : Prop :=
  k = .name ∨ k ∈ keywords

instance (k : Kind) : Decidable k.IsWord :=
  inferInstanceAs (Decidable (_ ∨ _))

theorem Token.Kind.isWord_ofWord (word : String) : (ofWord word).IsWord :=
  (Front.mem_keywords_ofWord word).symm

/-- A keyword is written in one way. -/
theorem Token.Kind.spelling_of_ofWord {word : String} {k : Kind} (h : ofWord word = k)
    (hk : k ≠ .name) : k.spelling = word := by
  subst h
  unfold ofWord at hk ⊢
  cases hf : keywords.find? fun k => k.spelling = word with
  | none => simp [hf] at hk
  | some k => simpa using List.find?_some hf

theorem Token.Kind.not_isWord_of_mem_punctuation {k : Kind} (h : k ∈ punctuation) :
    ¬ k.IsWord := by
  revert h
  revert k
  decide

/-! ### The form of a kind -/

namespace Begins

variable {c : Char} {cs : List Char} {k : Kind} {n : Nat}

theorem not_isWord_number : ¬ Kind.number.IsWord := by
  decide

theorem not_isWord_string : ¬ Kind.string.IsWord := by
  decide

/-- Only numbers are written as numbers. -/
theorem of_number (h : Begins c cs .number n) : Lexeme.startsNumber (c :: cs) ∧
    Lexeme.numberLength (c :: cs) = n ∧ ¬ (n = Lexeme.digitCount (c :: cs) ∧
      Word.half ≤ Decimal.value ((c :: cs).take n)) := by
  generalize hk : Kind.number = k at h
  cases h with
  | number h hfits => exact ⟨h, rfl, hfits⟩
  | string => cases hk
  | word => exact absurd (hk ▸ Kind.isWord_ofWord _) not_isWord_number
  | symbol _ h => exact absurd (hk ▸ (Kind.atFront?_eq_some_iff.mp h).1) (by decide)

/-- Only strings are written in quotes. -/
theorem of_string (h : Begins c cs .string n) :
    (c = '"' ∨ c = '\'') ∧ ∃ m, n = m + 1 ∧ Lexeme.stringTail c cs = (m, true) := by
  generalize hk : Kind.string = k at h
  cases h with
  | number => cases hk
  | @string m hquote htail => exact ⟨hquote, m, rfl, htail⟩
  | word => exact absurd (hk ▸ Kind.isWord_ofWord _) not_isWord_string
  | symbol _ h => exact absurd (hk ▸ (Kind.atFront?_eq_some_iff.mp h).1) (by decide)

theorem of_isWord (h : Begins c cs k n) (hk : k.IsWord) : Text.startsWord c ∧
    n = Lexeme.wordLength (c :: cs) ∧ Kind.ofWord (String.ofList ((c :: cs).take n)) = k := by
  cases h with
  | number => exact absurd hk not_isWord_number
  | string => exact absurd hk not_isWord_string
  | word h => exact ⟨h, rfl, rfl⟩
  | symbol _ h => exact absurd hk (Kind.not_isWord_of_mem_punctuation
      (Kind.atFront?_eq_some_iff.mp h).1)

theorem of_mem_punctuation (h : Begins c cs k n) (hk : k ∈ Kind.punctuation) :
    n = k.spelling.length ∧ k.spelling.toList <+: c :: cs := by
  cases h with
  | number | string => exact absurd hk (by decide)
  | word => exact absurd (Kind.isWord_ofWord _) (Kind.not_isWord_of_mem_punctuation hk)
  | symbol _ h => exact ⟨rfl, (Kind.atFront?_eq_some_iff.mp h).2.1⟩

end Begins

/-- The kinds whose spellings are no beginnings of other ones. -/
def Token.Kind.closed : List Kind :=
  [leftParen, rightParen, leftBracket, rightBracket, comma, colon, ellipsis]

/-- A character that extends a spelling stands in a longer one. -/
theorem Token.Kind.Extends.getElem?_eq {k : Kind} {c : Char} (h : k.Extends c) :
    ∃ l ∈ punctuation, k.spelling.toList <+: l.spelling.toList ∧
      l.spelling.toList[k.spelling.toList.length]? = some c := by
  obtain ⟨l, hl, hpre⟩ := h
  refine ⟨l, hl, (List.prefix_append _ _).trans hpre, ?_⟩
  obtain ⟨cs, hcs⟩ := hpre
  rw [← hcs, List.append_assoc, List.getElem?_append_right (Nat.le_refl _), Nat.sub_self]
  rfl

namespace Stands

variable {k : Kind} {w rest rest' : List Char}

/-! ### Words -/

/-- **Words.** A word is written with word characters only, no word character follows, and its text
tells its kind. -/
theorem word_iff (hk : k.IsWord) :
    Stands k w rest ↔ (∃ c ∈ w.head?, Text.startsWord c) ∧ (∀ c ∈ w, Text.continuesWord c) ∧
      (∀ c ∈ rest.head?, Text.continuesWord c = false) ∧ Kind.ofWord (String.ofList w) = k := by
  constructor
  · rintro ⟨c, cs, rfl, hbegins⟩
    obtain ⟨hc, hlen, hof⟩ := hbegins.of_isWord hk
    have hlen' : ((c :: cs ++ rest).takeWhile Text.continuesWord).length = (c :: cs).length :=
      hlen.symm
    obtain ⟨hall, hrest⟩ := length_takeWhile_append_iff.mp hlen'
    rw [← List.cons_append, List.take_left] at hof
    exact ⟨⟨c, rfl, hc⟩, hall, hrest, hof⟩
  · rintro ⟨⟨c, hhead, hc⟩, hall, hrest, rfl⟩
    cases w with
    | nil => cases hhead
    | cons d cs =>
      obtain rfl : d = c := by simpa using hhead
      have hlen : Lexeme.wordLength (d :: (cs ++ rest)) = (d :: cs).length :=
        length_takeWhile_append_iff.mpr ⟨hall, hrest⟩
      have := @Begins.word d (cs ++ rest) hc
      rw [hlen, ← List.cons_append, List.take_left] at this
      exact ⟨d, cs, rfl, this⟩

/-- A word stands in front of everything that does not start with a word character. -/
theorem word (h : Stands k w rest) (hk : k.IsWord)
    (hrest : ∀ c ∈ rest'.head?, Text.continuesWord c = false) : Stands k w rest' := by
  obtain ⟨hhead, hall, -, hof⟩ := (word_iff hk).mp h
  exact (word_iff hk).mpr ⟨hhead, hall, hrest, hof⟩

/-! ### Strings -/

end Stands

namespace Lexeme

variable {quote : Char}

theorem stringTail_cons {c : Char} (h : c ≠ '\\') (cs : List Char) :
    stringTail quote (c :: cs) = if c = quote then (1, true) else if c = '\n' then (1, false) else
      ((stringTail quote cs).1 + 1, (stringTail quote cs).2) := by
  cases cs <;> simp [stringTail, h]

theorem stringTail_hidden (c : Char) (cs : List Char) :
    stringTail quote ('\\' :: c :: cs) =
      ((stringTail quote cs).1 + 2, (stringTail quote cs).2) := by
  rw [stringTail]

/-- A string that is closed has its closing quote. -/
theorem stringTail_pos {cs : List Char} (h : (stringTail quote cs).2 = true) :
    0 < (stringTail quote cs).1 := by
  fun_induction stringTail quote cs <;> simp_all

/-- Where a string is closed does not depend on what follows. -/
theorem stringTail_append {cs rest : List Char} (rest' : List Char)
    (h : stringTail quote (cs ++ rest) = (cs.length, true)) :
    stringTail quote (cs ++ rest') = (cs.length, true) := by
  -- a backslash takes two characters at once, hence the induction on the length
  induction hn : cs.length using Nat.strongRecOn generalizing cs with
  | ind n ih =>
    subst hn
    cases cs with
    | nil =>
      have hpos := stringTail_pos (congrArg Prod.snd h)
      rw [h] at hpos
      exact absurd hpos (Nat.lt_irrefl 0)
    | cons c cs =>
      by_cases hc : c = '\\'
      · subst hc
        cases cs with
        | nil => cases rest <;> simp [stringTail] at h
        | cons d ds =>
          rw [List.cons_append, List.cons_append, stringTail_hidden, Prod.mk.injEq] at h
          have hlt : ds.length < ('\\' :: d :: ds).length := by
            simp only [List.length_cons]
            omega
          have htail := ih ds.length hlt (Prod.ext (Nat.add_right_cancel h.1) h.2) rfl
          rw [List.cons_append, List.cons_append, stringTail_hidden, htail]
          rfl
      · rw [List.cons_append, stringTail_cons hc] at h ⊢
        by_cases hquote : c = quote
        · rw [if_pos hquote] at h ⊢
          exact h
        · rw [if_neg hquote] at h ⊢
          by_cases hbreak : c = '\n'
          · rw [if_pos hbreak] at h
            cases congrArg Prod.snd h
          · rw [if_neg hbreak, Prod.mk.injEq] at h
            have htail := ih cs.length (by simp) (Prod.ext (Nat.add_right_cancel h.1) h.2) rfl
            rw [if_neg hbreak, htail]
            rfl

end Lexeme

namespace Stands

/-- A string can be followed by anything. -/
theorem string {w rest : List Char} (h : Stands .string w rest) (rest' : List Char) :
    Stands .string w rest' := by
  obtain ⟨c, cs, rfl, hbegins⟩ := h
  obtain ⟨hquote, n, hlen, htail⟩ := hbegins.of_string
  obtain rfl : cs.length = n := by simpa using hlen
  exact ⟨c, cs, rfl, .string hquote (Lexeme.stringTail_append rest' htail)⟩

/-! ### Operators and punctuation -/

variable {k : Kind} {rest : List Char}

/-- A kind that has a spelling is written with it. -/
theorem eq_spelling {w : List Char} (h : Stands k w rest)
    (hk : k ∈ Kind.punctuation ∨ k ∈ Kind.keywords) : w = k.spelling.toList := by
  rcases hk with hk | hk
  · obtain ⟨c, cs, rfl, hbegins⟩ := h
    -- the text and the spelling both start the same text and have one length
    obtain ⟨hlen, hpre⟩ := hbegins.of_mem_punctuation hk
    rw [← String.length_toList] at hlen
    rw [← List.cons_append] at hpre
    exact ((List.prefix_of_prefix_length_le hpre (List.prefix_append _ _)
      (Nat.le_of_eq hlen.symm)).eq_of_length hlen.symm).symm
  · obtain ⟨-, -, -, hof⟩ := (word_iff (Or.inr hk)).mp h
    have hne : k ≠ .name := by
      rintro rfl
      exact absurd hk (by decide)
    rw [Kind.spelling_of_ofWord hof hne, String.toList_ofList]

/-- A symbol stands in front of everything that does not extend it. A point must not be followed by
a digit either. -/
theorem symbol (hk : k ∈ Kind.punctuation) (hrest : ∀ c ∈ rest.head?, ¬ k.Extends c)
    (hdigit : k = .dot → ∀ c ∈ rest.head?, c.isDigit = false) :
    Stands k k.spelling.toList rest := by
  have hfront := Kind.atFront?_spelling_append hk hrest
  have hnumber : Lexeme.startsNumber (k.spelling.toList ++ rest) = false := by
    by_cases hdot : k = .dot
    · subst hdot
      cases rest with
      | nil => rfl
      | cons c cs => exact hdigit rfl c rfl
    · have hall : ∀ k ∈ Kind.punctuation, k ≠ .dot → k.spelling.toList ≠ ['.'] ∧
          Lexeme.startsNumber k.spelling.toList = false ∧ k.spelling.toList ≠ [] := by decide
      obtain ⟨hne, hstart, hnil⟩ := hall k hk hdot
      revert hne hstart hnil
      generalize k.spelling.toList = w
      intro hne hstart hnil
      match w, hnil with
      | [c], _ =>
        have hc : c ≠ '.' := by
          rintro rfl
          exact hne rfl
        simpa [Lexeme.startsNumber, hc] using hstart
      | c :: d :: cs, _ =>
        by_cases hc : c = '.'
        · subst hc
          exact hstart
        · simpa [Lexeme.startsNumber, hc] using hstart
  have hne : ∀ k ∈ Kind.punctuation, k.spelling.toList ≠ [] := by decide
  obtain ⟨c, cs, hw⟩ := List.exists_cons_of_ne_nil (hne k hk)
  refine ⟨c, cs, hw, ?_⟩
  rw [hw, List.cons_append] at hfront hnumber
  rw [String.length_toList]
  exact .symbol hnumber hfront

/-- Operators, punctuation and keywords stand in front of a space. -/
theorem before_space (hk : k ∈ Kind.punctuation ∨ k ∈ Kind.keywords) :
    Stands k k.spelling.toList (' ' :: rest) := by
  rcases hk with hk | hk
  · have hspace : ∀ k ∈ Kind.punctuation, ¬ k.Extends ' ' := by decide
    refine symbol hk ?_ ?_
    · rintro c ⟨⟩
      exact hspace k hk
    · rintro - c ⟨⟩
      rfl
  · have hword : ∀ k ∈ Kind.keywords,
        (k.spelling.toList.head?.any fun c => decide (Text.startsWord c)) = true ∧
          (k.spelling.toList.all fun c => decide (Text.continuesWord c)) = true ∧
          Kind.ofWord k.spelling = k := by
      decide
    obtain ⟨hhead, hall, hof⟩ := hword k hk
    refine (word_iff (Or.inr hk)).mpr ⟨Text.exists_of_any hhead, Text.forall_of_all hall, ?_,
      by rwa [String.ofList_toList]⟩
    rintro c ⟨⟩
    decide

/-- Parentheses, brackets, commas, colons and ellipses can be followed by anything. -/
theorem closed (hk : k ∈ Kind.closed) : Stands k k.spelling.toList rest := by
  have hall : ∀ k ∈ Kind.closed, k ∈ Kind.punctuation ∧ k ≠ .dot ∧ ∀ l ∈ Kind.punctuation,
        k.spelling.toList <+: l.spelling.toList → l.spelling.length = k.spelling.length := by
    decide
  obtain ⟨hmem, hdot, hlongest⟩ := hall k hk
  refine symbol hmem ?_ fun h => absurd h hdot
  intro c _ hc
  obtain ⟨l, hl, hpre, hat⟩ := hc.getElem?_eq
  have hlen : l.spelling.toList.length = k.spelling.toList.length := by
    rw [String.length_toList, String.length_toList, hlongest l hl hpre]
  rw [← hlen, List.getElem?_eq_none (Nat.le_refl _)] at hat
  cases hat

/-- A minus sign stands in front of everything but an equality sign. -/
theorem minus (hrest : ∀ c ∈ rest.head?, c ≠ '=') : Stands .minus ['-'] rest := by
  refine symbol (by decide) ?_ nofun
  intro c hc hext
  have hall : ∀ l ∈ Kind.punctuation, ['-'] <+: l.spelling.toList →
      (l.spelling.toList[1]?.all fun d => decide (d = '=')) = true := by decide
  obtain ⟨l, hl, hpre, hat⟩ := hext.getElem?_eq
  have hc' := hall l hl hpre
  change l.spelling.toList[1]? = some c at hat
  rw [hat] at hc'
  exact hrest c hc (of_decide_eq_true hc')

/-- A point stands in front of everything but a digit and another point. -/
theorem dot (hrest : ∀ c ∈ rest.head?, c.isDigit = false ∧ c ≠ '.') : Stands .dot ['.'] rest := by
  refine symbol (by decide) ?_ fun _ c hc => (hrest c hc).1
  intro c hc hext
  have hall : ∀ l ∈ Kind.punctuation, ['.'] <+: l.spelling.toList →
      (l.spelling.toList[1]?.all fun d => decide (d = '.')) = true := by decide
  obtain ⟨l, hl, hpre, hat⟩ := hext.getElem?_eq
  have hc' := hall l hl hpre
  change l.spelling.toList[1]? = some c at hat
  rw [hat] at hc'
  exact (hrest c hc).2 (of_decide_eq_true hc')

end Stands

end ShapeFault
