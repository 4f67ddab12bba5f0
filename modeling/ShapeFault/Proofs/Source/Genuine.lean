import ShapeFault.Expr.Source
import ShapeFault.Proofs.Grammar.Phrase
import ShapeFault.Proofs.Lexing.Number
import ShapeFault.Proofs.Tree.Parts

/-!
# Tokens written again

A token is **genuine** if its text is one that a reader of tokens found somewhere. Such a text can
be written in another place, where it reads as the same token again if what follows there does not
change it. This module says so for each form of token that the source of a tree is written with.
-/

namespace ShapeFault

open Token (Kind)

/-- The characters that the source of a tree has behind an expression. -/
def separators : List Char :=
  [' ', '(', '[', ')', ']', ',', ':', '.']

/-- The rest is empty or starts with a separator. -/
def Separated (rest : List Char) : Prop :=
  ∀ c ∈ rest.head?, c ∈ separators

namespace Separated

variable {rest : List Char}

theorem isDigit_eq_false (h : Separated rest) : ∀ c ∈ rest.head?, c.isDigit = false := by
  have hall : ∀ c ∈ separators, c.isDigit = false :=
    Text.forall_of_all (by decide)
  exact fun c hc => hall c (h c hc)

theorem continuesWord_eq_false (h : Separated rest) :
    ∀ c ∈ rest.head?, Text.continuesWord c = false := by
  have hall : ∀ c ∈ separators, Text.continuesWord c = false :=
    Text.forall_of_all (by decide)
  exact fun c hc => hall c (h c hc)

theorem not_sign (h : Separated rest) : ∀ c ∈ rest.head?, c ≠ '+' ∧ c ≠ '-' := by
  have hall : ∀ c ∈ separators, c ≠ '+' ∧ c ≠ '-' :=
    Text.forall_of_all (by decide)
  exact fun c hc => hall c (h c hc)

theorem calm (h : Separated rest) : Lexeme.Calm rest := by
  have hall : ∀ c ∈ separators, c.isDigit = false ∧ c ≠ 'e' ∧ c ≠ 'E' :=
    Text.forall_of_all (by decide)
  exact fun c hc => hall c (h c hc)

/-- Behind a number, a separator but the point changes nothing. -/
theorem not_point (h : Separated rest) (hdot : '.' ∉ rest.head?) :
    Lexeme.fractionLength rest = 0 ∧ Lexeme.pointBelongs rest = true := by
  have hall : ∀ c ∈ separators, Text.startsWord c = false :=
    Text.forall_of_all (by decide)
  cases rest with
  | nil => exact ⟨rfl, rfl⟩
  | cons c cs =>
    have hne : c ≠ '.' := by
      rintro rfl
      exact hdot rfl
    simp [Lexeme.fractionLength, Lexeme.pointBelongs, hne, hall c (h c rfl)]

end Separated

/-- The text of the token has been read somewhere as a token of its kind. -/
def Token.Genuine (t : Token) : Prop :=
  ∃ rest, Stands t.kind t.text.toList rest

namespace Token.Genuine

variable {t : Token} {k : Kind} {rest : List Char} {ws : List (Kind × String)}

/-- A genuine token of a kind that has a spelling carries it. -/
theorem lexeme_eq (h : t.Genuine) (hk : t.kind = k)
    (hs : k ∈ Kind.punctuation ∨ k ∈ Kind.keywords) : t.lexeme = (k, k.spelling) := by
  subst hk
  obtain ⟨_, hstands⟩ := h
  exact Prod.ext rfl (String.toList_inj.mp (hstands.eq_spelling hs))

/-- A spelling that stands in front of a rest reads as its token. -/
theorem lexes_spelling_iff (h : t.Genuine) (hk : t.kind = k)
    (hs : k ∈ Kind.punctuation ∨ k ∈ Kind.keywords) (hstands : Stands k k.spelling.toList rest) :
    Lexes (k.spelling.toList ++ rest) (t.lexeme :: ws) ↔ Lexes rest ws := by
  rw [h.lexeme_eq hk hs, lexes_append_iff]
  exact and_iff_right hstands

/-- An operator or a comma with a space behind it. -/
theorem lexes_spaced_iff (h : t.Genuine) (hk : t.kind = k)
    (hs : k ∈ Kind.punctuation ∨ k ∈ Kind.keywords) :
    Lexes (k.spelling.toList ++ ' ' :: rest) (t.lexeme :: ws) ↔ Lexes rest ws := by
  rw [h.lexes_spelling_iff hk hs (.before_space hs), Lexes.blank_iff (by decide)]

/-- A parenthesis, a bracket, a colon or an ellipsis. -/
theorem lexes_closed_iff (h : t.Genuine) (hk : t.kind = k) (hs : k ∈ Kind.closed) :
    Lexes (k.spelling.toList ++ rest) (t.lexeme :: ws) ↔ Lexes rest ws := by
  have hall : ∀ k ∈ Kind.closed, k ∈ Kind.punctuation := by decide
  exact h.lexes_spelling_iff hk (Or.inl (hall k hs)) (.closed hs)

/-- A name or the word of a literal. -/
theorem lexes_word_iff (h : t.Genuine) (hk : t.kind.IsWord)
    (hrest : ∀ c ∈ rest.head?, Text.continuesWord c = false) :
    Lexes (t.text.toList ++ rest) (t.lexeme :: ws) ↔ Lexes rest ws := by
  obtain ⟨_, hstands⟩ := h
  rw [Token.lexeme, lexes_append_iff]
  exact and_iff_right (hstands.word hk hrest)

/-- A string. -/
theorem lexes_string_iff (h : t.Genuine) (hk : t.kind = .string) :
    Lexes (t.text.toList ++ rest) (t.lexeme :: ws) ↔ Lexes rest ws := by
  obtain ⟨_, hstands⟩ := h
  rw [Token.lexeme, lexes_append_iff]
  rw [hk] at hstands ⊢
  exact and_iff_right (hstands.string rest)

/-- The characters of a name or a word. -/
theorem word (h : t.Genuine) (hk : t.kind.IsWord) : (∃ c ∈ t.text.toList.head?, Text.startsWord c) ∧
    ∀ c ∈ t.text.toList, Text.continuesWord c := by
  obtain ⟨_, hstands⟩ := h
  obtain ⟨hhead, hall, -⟩ := (Stands.word_iff hk).mp hstands
  exact ⟨hhead, hall⟩

/-- A number where neither a digit nor an exponent follows. -/
theorem lexes_number_iff (h : t.Genuine) (hk : t.kind = .number) (hrest : Lexeme.Calm rest) :
    Lexes (t.text.toList ++ rest) (t.lexeme :: ws) ↔
      (((∀ c ∈ t.text.toList, c.isDigit) → Lexeme.fractionLength rest = 0) ∧
        (t.text.toList.getLast? = some '.' → Lexeme.pointBelongs rest)) ∧ Lexes rest ws := by
  obtain ⟨_, hstands⟩ := h
  rw [Token.lexeme, lexes_append_iff]
  rw [hk] at hstands ⊢
  rw [hstands.number_iff_of_calm hrest]

/-- Names and literals do not start with an equality sign. -/
theorem head_ne (h : t.Genuine) (hk : t.kind = .number ∨ t.kind = .string ∨ t.kind.IsWord) :
    ∃ c ∈ t.text.toList.head?, c ≠ '=' := by
  obtain ⟨rest, c, cs, hw, hbegins⟩ := h
  refine ⟨c, by rw [hw]; rfl, ?_⟩
  rintro rfl
  rcases hk with hk | hk | hk
  · rw [hk] at hbegins
    have hstart := hbegins.of_number.1
    rw [Lexeme.startsNumber_cons (by decide)] at hstart
    exact absurd hstart (by decide)
  · rw [hk] at hbegins
    exact absurd hbegins.of_string.1 (by decide)
  · exact absurd (hbegins.of_isWord hk).1 (by decide)

end Token.Genuine

/-- A literal keeps the text of its token. -/
theorem Literal.Written.text_eq {t : Token} {l : Literal} (h : l.Written t) (ht : t.Genuine) :
    l.text = t.text := by
  cases h with
  | number _ hl =>
    simp only [ofNumber?] at hl
    split at hl <;> obtain ⟨v, -, rfl⟩ := Option.map_eq_some_iff.mp hl <;> rfl
  | string => rfl
  | trueWord hk | falseWord hk | noneWord hk =>
    exact (congrArg Prod.snd (ht.lexeme_eq hk (Or.inr (by decide)))).symm

end ShapeFault
