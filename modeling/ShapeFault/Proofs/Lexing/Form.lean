import ShapeFault.Proofs.Lexing.Number

/-!
# The form of a lexeme

The kind of a lexeme can be told from its text alone. `Kind.Form` gives the texts of each kind
without reading them: words by their characters, strings by what may stand between their quotes,
numbers by their parts, and all other kinds by their spellings. The texts of a kind are those that
are read as one lexeme of it when nothing follows (`Kind.form_iff_stands`), so no text has two kinds
(`Kind.Form.unique`), and a lexeme that stands in a longer text has the form of its kind.
-/

namespace ShapeFault

open Token (Kind)

namespace Lexeme

/-- What may stand between the quotes of a string: a backslash hides the character behind it, and
neither the quote nor a line break stands there without one. -/
inductive Quoted (quote : Char) : List Char → Prop where
  | nil : Quoted quote []
  | plain {c : Char} {cs : List Char} (hquote : c ≠ quote) (hhide : c ≠ '\\') (hbreak : c ≠ '\n')
      (hcs : Quoted quote cs) : Quoted quote (c :: cs)
  | hidden {c : Char} {cs : List Char} (hcs : Quoted quote cs) : Quoted quote ('\\' :: c :: cs)

/-- The texts of numbers: digits, a fraction or both, and perhaps an exponent. -/
def NumberForm (w : List Char) : Prop :=
  ∃ ds fs es, w = ds ++ fs ++ es ∧ NumberParts ds fs es ∧ ∃ d ∈ ds ++ fs, d.isDigit

variable {quote : Char} {w body rest : List Char}

/-! ### Strings -/

theorem Quoted.stringTail_append (h : Quoted quote body) (hquote : quote ≠ '\\') :
    stringTail quote (body ++ quote :: rest) = (body.length + 1, true) := by
  induction h with
  | nil => rw [List.nil_append, stringTail_cons hquote, if_pos rfl, List.length_nil]
  | plain hne hhide hbreak _ ih =>
    rw [List.cons_append, stringTail_cons hhide, if_neg hne, if_neg hbreak, ih, List.length_cons]
  | hidden _ ih =>
    rw [List.cons_append, List.cons_append, stringTail_hidden, ih]
    rfl

/-- A string that ends with its text has its closing quote there and nowhere before. -/
theorem exists_quoted {cs : List Char} (h : stringTail quote cs = (cs.length, true)) :
    ∃ body, cs = body ++ [quote] ∧ Quoted quote body := by
  fun_induction stringTail quote cs with
  | case1 | case2 => cases congrArg Prod.snd h
  | case3 c cs tail ih =>
    obtain ⟨hlen, hclosed⟩ := Prod.mk.inj h
    obtain ⟨body, rfl, hbody⟩ := ih (Prod.ext (Nat.add_right_cancel hlen) hclosed)
    exact ⟨'\\' :: c :: body, rfl, .hidden hbody⟩
  | case4 cs =>
    obtain rfl : cs = [] := by simpa using h
    exact ⟨[], rfl, .nil⟩
  | case5 => cases congrArg Prod.snd h
  | case6 c cs hlast hhidden hne hbreak tail ih =>
    obtain ⟨hlen, hclosed⟩ := Prod.mk.inj h
    obtain ⟨body, rfl, hbody⟩ := ih (Prod.ext (Nat.add_right_cancel hlen) hclosed)
    have hhide : c ≠ '\\' := by
      intro hc
      cases body with
      | nil => exact hhidden quote [] hc rfl
      | cons d ds => exact hhidden d (ds ++ [quote]) hc rfl
    exact ⟨c :: body, rfl, .plain hne hhide hbreak hbody⟩

/-! ### Numbers -/

theorem calm_nil : Calm [] :=
  fun _ hc => nomatch hc

theorem NumberForm.startsNumber (h : NumberForm w) (rest : List Char) :
    startsNumber (w ++ rest) := by
  obtain ⟨ds, fs, es, rfl, ⟨hds, hfs, -⟩, d, hd, hdigit⟩ := h
  cases ds with
  | cons c cs =>
    have hc : c.isDigit := hds c List.mem_cons_self
    have hne : c ≠ '.' := by
      rintro rfl
      exact absurd hc (by decide)
    rw [List.cons_append, List.cons_append, List.cons_append, startsNumber_cons hne]
    exact hc
  | nil =>
    rw [List.nil_append] at hd
    cases hfs with
    | none => cases hd
    | @some ys hys =>
      cases ys with
      | nil =>
        obtain rfl := List.mem_singleton.mp hd
        exact absurd hdigit (by decide)
      | cons y ys => exact hys y List.mem_cons_self

theorem numberForm_of_startsNumber {ds fs es : List Char} (h : NumberParts ds fs es)
    (hstart : startsNumber (ds ++ fs ++ es)) : NumberForm (ds ++ fs ++ es) := by
  refine ⟨ds, fs, es, rfl, h, ?_⟩
  obtain ⟨hds, hfs, hes⟩ := h
  cases ds with
  | cons c cs => exact ⟨c, by simp, hds c List.mem_cons_self⟩
  | nil =>
    rw [List.nil_append] at hstart ⊢
    -- without digits in front a number starts with a point and a digit
    cases hfs with
    | none =>
      cases hes with
      | none => cases hstart
      | @some e sign digits he =>
        rw [List.nil_append] at hstart
        rcases he with rfl | rfl <;> rw [startsNumber_cons (by decide)] at hstart <;>
          exact absurd hstart (by decide)
    | @some ys hys =>
      cases ys with
      | cons y ys => exact ⟨y, by simp, hys y List.mem_cons_self⟩
      | nil =>
        cases hes with
        | none => exact absurd hstart (by decide)
        | @some e sign digits he =>
          have hdigit : e.isDigit := hstart
          rcases he with rfl | rfl <;> exact absurd hdigit (by decide)

end Lexeme

/-! ### Lexemes on their own -/

theorem Begins.kind_cases {c : Char} {cs : List Char} {k : Kind} {n : Nat} (h : Begins c cs k n) :
    k = .number ∨ k = .string ∨ k.IsWord ∨ k ∈ Kind.punctuation := by
  cases h with
  | number => exact Or.inl rfl
  | string => exact Or.inr (Or.inl rfl)
  | word => exact Or.inr (Or.inr (Or.inl (Kind.isWord_ofWord _)))
  | symbol _ h => exact Or.inr (Or.inr (Or.inr (Kind.atFront?_eq_some_iff.mp h).1))

namespace Stands

open Lexeme

variable {k : Kind} {w rest : List Char}

theorem kind_cases (h : Stands k w rest) :
    k = .number ∨ k = .string ∨ k.IsWord ∨ k ∈ Kind.punctuation := by
  obtain ⟨c, cs, -, hbegins⟩ := h
  exact hbegins.kind_cases

theorem kind_ne_endMarker (h : Stands k w rest) : k ≠ .endMarker := by
  obtain ⟨c, cs, -, hbegins⟩ := h
  exact Front.kind_ne_endMarker (Front.of_eq_token_iff.mpr hbegins)

/-- A symbol is read where it stands alone. -/
theorem symbol_alone (hk : k ∈ Kind.punctuation) : Stands k k.spelling.toList [] :=
  symbol hk (fun _ hc => nomatch hc) fun _ => nofun

/-- **A lexeme is read again where it stands alone.** -/
theorem alone (h : Stands k w rest) : Stands k w [] := by
  rcases h.kind_cases with rfl | rfl | hk | hk
  · exact (h.number_iff_of_calm calm_nil).mpr ⟨fun _ => rfl, fun _ => rfl⟩
  · exact h.string []
  · exact h.word hk nofun
  · rw [h.eq_spelling (Or.inl hk)]
    exact symbol_alone hk

/-- A number alone. -/
theorem number_alone_iff : Stands .number w [] ↔
    NumberForm w ∧ ((∀ c ∈ w, c.isDigit) → Decimal.value w < Word.half) := by
  have hdigits : w.length = digitCount w ↔ ∀ c ∈ w, c.isDigit := by
    have := @length_takeWhile_append_iff Char.isDigit w []
    rw [List.append_nil] at this
    rw [eq_comm]
    exact this.trans (and_iff_left nofun)
  rw [number_iff, List.append_nil, hdigits, not_and, Nat.not_le]
  constructor
  · rintro ⟨hstart, hlen, hfits⟩
    refine ⟨?_, hfits⟩
    obtain ⟨ds, fs, es, hw, hparts⟩ := Lexeme.exists_parts w
    rw [hlen, List.take_length] at hw
    rw [hw] at hstart ⊢
    exact numberForm_of_startsNumber hparts hstart
  · rintro ⟨hform, hfits⟩
    have hstart := hform.startsNumber []
    rw [List.append_nil] at hstart
    refine ⟨hstart, ?_, hfits⟩
    obtain ⟨ds, fs, es, rfl, hparts, -⟩ := hform
    have hlen := (hparts.numberLength_eq_iff calm_nil).mpr
      ⟨fun _ _ => rfl, fun _ _ => rfl⟩
    rwa [List.append_nil] at hlen

/-- A string alone. -/
theorem string_alone_iff : Stands .string w [] ↔ ∃ quote body, w = quote :: (body ++ [quote]) ∧
    (quote = '"' ∨ quote = '\'') ∧ Quoted quote body := by
  constructor
  · rintro ⟨c, cs, rfl, hbegins⟩
    rw [List.append_nil] at hbegins
    obtain ⟨hquote, n, hlen, htail⟩ := hbegins.of_string
    obtain rfl : cs.length = n := by simpa using hlen
    obtain ⟨body, rfl, hbody⟩ := exists_quoted htail
    exact ⟨c, body, rfl, hquote, hbody⟩
  · rintro ⟨quote, body, rfl, hquote, hbody⟩
    have hhide : quote ≠ '\\' := by rcases hquote with rfl | rfl <;> decide
    refine ⟨quote, body ++ [quote], rfl, ?_⟩
    have htail : Lexeme.stringTail quote (body ++ [quote]) = (body.length + 1, true) :=
      hbody.stringTail_append hhide
    simpa using Begins.string hquote htail

end Stands

/-! ### The form of a kind -/

namespace Token.Kind

/-- `k.Form w` says that the text `w` by itself is one of kind `k`. -/
inductive Form : Kind → List Char → Prop where
  /-- a symbol or a keyword -/
  | spelled {k : Kind} (hk : k ∈ punctuation ∨ k ∈ keywords) : Form k k.spelling.toList
  /-- a word that is no keyword -/
  | name {c : Char} {cs : List Char} (hc : Text.startsWord c)
      (hcs : ∀ d ∈ cs, Text.continuesWord d) (hno : ∀ k ∈ keywords, k.spelling.toList ≠ c :: cs) :
      Form .name (c :: cs)
  /-- a number; one of digits only fits in a word -/
  | number {w : List Char} (hw : Lexeme.NumberForm w)
      (hfits : (∀ c ∈ w, c.isDigit) → Decimal.value w < Word.half) : Form .number w
  /-- a text between two quotes of one sort -/
  | string {quote : Char} {body : List Char} (hquote : quote = '"' ∨ quote = '\'')
      (hbody : Lexeme.Quoted quote body) : Form .string (quote :: (body ++ [quote]))

theorem ofWord_eq_name_iff {word : String} :
    ofWord word = name ↔ ∀ k ∈ keywords, k.spelling ≠ word := by
  unfold ofWord
  cases h : keywords.find? fun k => k.spelling = word with
  | none => simpa using h
  | some k =>
    have hk := List.mem_of_find?_eq_some h
    have hname : k ≠ name := by
      rintro rfl
      exact absurd hk (by decide)
    have hspelling : k.spelling = word := by simpa using List.find?_some h
    exact iff_of_false hname fun hall => hall k hk hspelling

/-- **The texts of a kind** are those that are read as one lexeme of it. -/
theorem form_iff_stands {k : Kind} {w : List Char} : k.Form w ↔ Stands k w [] := by
  constructor
  · rintro (hk | ⟨hc, hcs, hno⟩ | ⟨hw, hfits⟩ | ⟨hquote, hbody⟩)
    · rcases hk with hk | hk
      · exact .symbol_alone hk
      · have hstands : Stands k k.spelling.toList [' '] := .before_space (.inr hk)
        exact hstands.alone
    · refine (Stands.word_iff (Or.inl rfl)).mpr ⟨⟨_, rfl, hc⟩, ?_, nofun, ?_⟩
      · exact List.forall_mem_cons.mpr ⟨Text.continuesWord_of_startsWord hc, hcs⟩
      · refine ofWord_eq_name_iff.mpr fun k hk heq => hno k hk ?_
        rw [heq, String.toList_ofList]
    · exact Stands.number_alone_iff.mpr ⟨hw, hfits⟩
    · exact Stands.string_alone_iff.mpr ⟨_, _, rfl, hquote, hbody⟩
  · intro h
    rcases h.kind_cases with rfl | rfl | hk | hk
    · obtain ⟨hw, hfits⟩ := Stands.number_alone_iff.mp h
      exact .number hw hfits
    · obtain ⟨quote, body, rfl, hquote, hbody⟩ := Stands.string_alone_iff.mp h
      exact .string hquote hbody
    · rcases hk with rfl | hk
      · obtain ⟨⟨c, hhead, hc⟩, hall, -, hof⟩ := (Stands.word_iff (Or.inl rfl)).mp h
        obtain ⟨cs, rfl⟩ := List.head?_eq_some_iff.mp hhead
        refine .name hc (fun d hd => hall d (List.mem_cons_of_mem c hd)) fun k hk heq => ?_
        refine ofWord_eq_name_iff.mp hof k hk ?_
        rw [← heq, String.ofList_toList]
      · rw [h.eq_spelling (Or.inr hk)]
        exact .spelled (Or.inr hk)
    · rw [h.eq_spelling (Or.inl hk)]
      exact .spelled (Or.inl hk)

/-- No text has two kinds. -/
theorem Form.unique {k l : Kind} {w : List Char} (hk : k.Form w) (hl : l.Form w) : k = l := by
  obtain ⟨c, cs, rfl, hbegins⟩ := form_iff_stands.mp hk
  obtain ⟨d, ds, heq, hbegins'⟩ := form_iff_stands.mp hl
  cases heq
  have hfront := (Front.of_eq_token_iff.mpr hbegins).symm.trans (Front.of_eq_token_iff.mpr hbegins')
  exact (Front.token.inj hfront).1

/-- The kind of a lexeme is the one that its text has by itself. -/
theorem form_iff_eq_of_stands {k l : Kind} {w rest : List Char} (h : Stands k w rest) :
    l.Form w ↔ l = k := by
  have hk := form_iff_stands.mpr h.alone
  exact ⟨fun hl => hl.unique hk, fun heq => heq ▸ hk⟩

end Token.Kind

end ShapeFault
