import ShapeFault.Proofs.Lexing.Tiling

/-!
# Places in a line

A cursor stands on a line if the text that it has in front of it is the rest of the line and its
offset counts the bytes before that (`Cursor.On`). Reading keeps this, whatever is read and also
behind an error, so an error that is reported stands where it says: from its place on, the line goes
on as the error describes it (`LexError.Describes`, `Cursor.On.pointsInto`).
-/

namespace ShapeFault

open Token (Kind)

/-! ### What a text begins with, token or not -/

/-- `Meets c cs f` says that the text with first character `c` and other characters `cs` begins with
what `f` says. -/
inductive Meets (c : Char) (cs : List Char) : Front → Prop where
  | token {k : Kind} {n : Nat} (h : Begins c cs k n) : Meets c cs (.token k n)
  /-- digits only, whose value does not fit in a word -/
  | largeNumber {n : Nat} (hstart : Lexeme.startsNumber (c :: cs))
      (hlen : Lexeme.numberLength (c :: cs) = n) (hdigits : n = Lexeme.digitCount (c :: cs))
      (hvalue : Word.half ≤ Decimal.value ((c :: cs).take n)) : Meets c cs (.largeNumber n)
  | openString {n : Nat} (hquote : c = '"' ∨ c = '\'')
      (htail : Lexeme.stringTail c cs = (n, false)) : Meets c cs (.openString (n + 1))
  /-- only an exclamation mark is passed over if no token starts with it -/
  | unknown : Meets c cs (.unknown (if c = '!' then 1 else 0))

namespace Front

theorem meets (c : Char) (cs : List Char) : Meets c cs (of c cs) := by
  unfold of
  split
  case isTrue hstart =>
    simp only
    split
    case isTrue hlarge => exact .largeNumber hstart rfl hlarge.1 hlarge.2
    case isFalse hfits => exact .token (.number hstart hfits)
  case isFalse hstart =>
    split
    case isTrue hquote =>
      split
      case h_1 htail => exact .token (.string hquote htail)
      case h_2 htail => exact .openString hquote htail
    case isFalse =>
      split
      case isTrue hword => exact .token (.word hword)
      case isFalse =>
        split
        case h_1 hsymbol => exact .token (.symbol (Bool.eq_false_iff.mpr hstart) hsymbol)
        case h_2 => exact .unknown

/-- **Something is passed over** unless no token starts with a character other than `!`. -/
theorem length_pos_or (c : Char) (cs : List Char) :
    0 < (of c cs).length ∨ of c cs = .unknown 0 ∧ c ≠ '!' := by
  have hmeets := meets c cs
  generalize hfront : of c cs = f at hmeets
  cases hmeets with
  | token => exact Or.inl (length_pos_of_eq_token hfront)
  | largeNumber hstart hlen => exact Or.inl (hlen ▸ Lexeme.numberLength_pos hstart)
  | openString => exact Or.inl (Nat.succ_pos _)
  | unknown =>
    by_cases hc : c = '!'
    · exact Or.inl (by rw [if_pos hc]; exact Nat.one_pos)
    · exact Or.inr ⟨by rw [if_neg hc], hc⟩

end Front

/-- A string that is not closed where it is read is not closed at all. -/
theorem Lexeme.Quoted.not_prefix {quote : Char} {body cs : List Char} (h : Quoted quote body)
    (hquote : quote = '"' ∨ quote = '\'') (hopen : (stringTail quote cs).2 = false) :
    ¬ body ++ [quote] <+: cs := by
  rintro ⟨rest, rfl⟩
  have hne : quote ≠ '\\' := by rcases hquote with rfl | rfl <;> decide
  rw [List.append_assoc, List.singleton_append, h.stringTail_append hne] at hopen
  cases hopen

/-! ### What an error says -/

namespace LexError

/-- What an error says of the text from its place on. -/
def Describes : LexError → List Char → Prop
  | unexpectedCharacter c _, text => text.head? = some c
  /- the number is there, it consists of digits, and its value does not fit in a word -/
  | invalidNumber s _, text =>
    s.toList <+: text ∧ (∀ c ∈ s.toList, c.isDigit) ∧ Word.half ≤ Decimal.value s.toList
  /- a quote is there, and no string with this quote around it -/
  | unterminatedString _, text =>
    ∃ quote cs, text = quote :: cs ∧ (quote = '"' ∨ quote = '\'') ∧
      ∀ body, Lexeme.Quoted quote body → ¬ body ++ [quote] <+: cs

/-- The place of an error is a place in the line, in front of a character and not within one, and
the line goes on from there as the error says. -/
def PointsInto (line : String) (e : LexError) : Prop :=
  ∃ pre rest, line = pre ++ rest ∧ pre.utf8ByteSize = e.position ∧ e.Describes rest.toList

end LexError

/-! ### Cursors on a line -/

namespace Cursor

variable {line : String} {s s' : Cursor} {c : Char} {cs : List Char}

/-- The cursor stands on the line. -/
def On (line : String) (s : Cursor) : Prop :=
  ∃ pre : String, line = pre ++ String.ofList s.rest ∧ s.offset = pre.utf8ByteSize

theorem on_start (line : String) : (start line).On line :=
  ⟨"", by simp [start], rfl⟩

namespace On

theorem advance (h : s.On line) (n : Nat) : (s.advance n).On line := by
  obtain ⟨pre, hline, hoffset⟩ := h
  refine ⟨pre ++ String.ofList (s.rest.take n), ?_, ?_⟩
  · rw [hline, Cursor.advance, String.append_assoc, ← String.ofList_append, List.take_append_drop]
  · rw [Cursor.advance, hoffset, byteLength_eq, String.utf8ByteSize_append]

theorem skipTrivia (h : s.On line) : s.skipTrivia.On line :=
  h.advance _

/-- At the end of a line all its bytes have been counted. -/
theorem offset_eq (h : s.On line) (hrest : s.rest = []) : s.offset = line.utf8ByteSize := by
  obtain ⟨pre, rfl, hoffset⟩ := h
  rw [hoffset, hrest, String.ofList_nil, String.append_empty]

/-- **Reading keeps to the line**, also behind an error. -/
theorem next (h : s.On line) : s.next.2.On line := by
  cases hskip : Lexeme.skip s.rest with
  | nil =>
    rw [next_of_rest_nil hskip]
    exact h.skipTrivia
  | cons c cs =>
    rw [next_of_rest hskip]
    exact h.skipTrivia.advance _

end On

/-- The text behind the character at a cursor. -/
theorem ofList_rest (hrest : s.rest = c :: cs) :
    String.ofList s.rest = String.singleton c ++ String.ofList cs := by
  rw [hrest, ← List.singleton_append, String.ofList_append, ← String.singleton_eq_ofList]

/-- Going on leaves bytes behind. -/
theorem offset_lt_advance (hrest : s.rest = c :: cs) {n : Nat} (hn : 0 < n) :
    s.offset < (s.advance n).offset := by
  obtain ⟨m, rfl⟩ : ∃ m, n = m + 1 := ⟨n - 1, by omega⟩
  have hpos := c.utf8Size_pos
  simp only [advance, hrest, List.take_succ_cons, byteLength]
  omega

theorem offset_le_advance (s : Cursor) (n : Nat) : s.offset ≤ (s.advance n).offset :=
  Nat.le_add_right _ _

theorem length_rest_advance_le (s : Cursor) (n : Nat) :
    (s.advance n).rest.length ≤ s.rest.length := by
  simp [advance]

/-- In front of a character that is neither a blank nor a comment nothing is passed over. -/
theorem skipTrivia_of_solid (h : s.rest = c :: cs) (hc : Solid c) : s.skipTrivia = s := by
  obtain ⟨offset, rest⟩ := s
  obtain rfl : rest = c :: cs := h
  simp [skipTrivia, advance, Lexeme.triviaLength, hc.1, hc.2, byteLength]

/-- What an answer says, if it is an error. -/
theorem describes_of_answer (hrest : s.rest = c :: cs) {e : LexError}
    (h : s.answer c (Front.of c cs) = .error e) :
    e.position = s.offset ∧ e.Describes s.rest := by
  have hmeets := Front.meets c cs
  generalize Front.of c cs = f at h hmeets
  cases hmeets with
  | token => cases h
  | @largeNumber n _ _ hdigits hvalue =>
    cases h
    refine ⟨rfl, ?_⟩
    rw [LexError.Describes, String.toList_ofList, hrest]
    exact ⟨List.take_prefix n _, hdigits ▸ fun _ => Lexeme.isDigit_of_mem_take, hvalue⟩
  | openString hquote htail =>
    cases h
    exact ⟨rfl, c, cs, hrest, hquote, fun _ hbody => hbody.not_prefix hquote (by rw [htail])⟩
  | unknown =>
    cases h
    exact ⟨rfl, by rw [LexError.Describes, hrest, List.head?_cons]⟩

/-- **An error points into its line.** -/
theorem On.pointsInto (h : s.On line) {e : LexError} (hnext : s.next = (.error e, s')) :
    e.PointsInto line := by
  cases hskip : Lexeme.skip s.rest with
  | nil =>
    rw [next_of_rest_nil hskip] at hnext
    cases hnext
  | cons c cs =>
    rw [next_of_rest hskip, Prod.mk.injEq] at hnext
    obtain ⟨pre, hline, hoffset⟩ := h.skipTrivia
    obtain ⟨hposition, hdescribes⟩ := describes_of_answer hskip hnext.1
    refine ⟨pre, _, hline, by rw [hposition, hoffset], ?_⟩
    rwa [String.toList_ofList]

end Cursor

end ShapeFault
