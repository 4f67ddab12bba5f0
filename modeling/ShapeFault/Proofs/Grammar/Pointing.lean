import ShapeFault.Proofs.Grammar.Places
import ShapeFault.Proofs.Lexing.Progress

/-!
# What an error shows is in the line

An error of a line comes with a place, and a message that shows what was found there. The place is
one between the characters of the line, and the line goes on from it with what is shown
(`ParseError.Describes`). For an error of the tokens this is a property of the cursor that they are
read with; a token that is refused is placed by the tiling of the line (`exists_text_of_tokenize`).
The end of the line is named exactly where nothing is left. The main result is
`parse_error_points_into_line`.
-/

namespace ShapeFault

open Token (Kind)

namespace ParseError

/-- What an error says of the text from its place on: the token that is shown is there, and where
none is shown nothing is left. -/
def Describes : ParseError → List Char → Prop
  | lexical e, text => e.Describes text
  | unexpected _ _ (some shown), text => shown ≠ "" ∧ shown.toList <+: text
  | unexpected _ _ none, text => text = []

/-- No token is named like the end of a line. -/
theorem foundText_eq_iff {found : Option String} :
    foundText found = "end of line" ↔ found = none := by
  cases found with
  | none => simp [foundText]
  | some t =>
    have hquote : (foundText (some t)).toList.head? = some '\'' := by
      simp [foundText, String.toList_append]
    refine iff_of_false (fun heq => ?_) nofun
    rw [heq] at hquote
    exact absurd hquote (by decide)

end ParseError

/-- Only the tokens can be in error, never the value of a number: every number that has been read as
a token has one. -/
theorem parse_eq_lexical_iff {line : String} {e : LexError} :
    parse line = .error (.lexical e) ↔ tokenize line = .error e := by
  constructor
  · intro h
    cases htokens : tokenize line with
    | error e' =>
      rw [parse, htokens] at h
      cases h
      rfl
    | ok ts =>
      have hagrees := parse_agrees_of_lexemes htokens htokens rfl
      rw [h] at hagrees
      cases hagrees
  · intro h
    rw [parse, h]

/-- A token of a line is the mark of its end, or its text stands in the line at its place. -/
theorem exists_text_of_tokenize {line : String} {ts : List Token} (h : tokenize line = .ok ts)
    {t : Token} (ht : t ∈ ts) : t = Token.ending line.utf8ByteSize ∨
      t.kind ≠ .endMarker ∧ t.text ≠ "" ∧
        ∃ pre post, line = pre ++ t.text ++ post ∧ pre.utf8ByteSize = t.span.start := by
  have htiles := tiles_of_tokenize h
  obtain ⟨body, hbody, htexts⟩ := htiles.exists_body
  rw [String.empty_append] at hbody
  rcases List.mem_append.mp (hbody ▸ ht) with hmem | hmem
  · obtain ⟨before, after, hts⟩ := List.mem_iff_append.mp ht
    obtain ⟨pre, gap, post, hline, -, hplaced⟩ := htiles.exists_placed hts
    rw [String.empty_append] at hline
    exact Or.inr ⟨(htexts t hmem).1, (htexts t hmem).2, pre ++ gap, post, hline,
      hplaced.start.symm⟩
  · exact Or.inl (List.mem_singleton.mp hmem)

/-- **A syntax error** shows the token at its place, or says that the line ends there. -/
theorem describes_of_unexpected {line : String} {position : Nat} {expected : List Expected}
    {found : Option String} (h : parse line = .error (.unexpected position expected found)) :
    ∃ pre rest, line = pre ++ rest ∧ pre.utf8ByteSize = position ∧
      (ParseError.unexpected position expected found).Describes rest.toList := by
  obtain ⟨before, t, after, r, htokens, rfl, rfl, -, -, -⟩ := exists_refuses h
  have ht : t ∈ before ++ t :: after := List.mem_append_right _ List.mem_cons_self
  rcases exists_text_of_tokenize htokens ht with rfl | ⟨hk, hne, pre, post, hline, hstart⟩
  · exact ⟨line, "", by rw [String.append_empty], rfl, rfl⟩
  · refine ⟨pre, t.text ++ post, by rw [hline, String.append_assoc], hstart, ?_⟩
    rw [if_neg hk]
    exact ⟨hne, by rw [String.toList_append]; exact List.prefix_append _ _⟩

/-- **What an error shows is in the line.** The place of an error is a place between the characters
of the line or one of its ends, and the line goes on from there with what the error shows: the
character that no token starts with, the number that is too large, a quote of a string that is not
closed, or the token that was found in place of what was expected. The end of the line is named as
what was found exactly if the place is the end of the line. -/
theorem parse_error_points_into_line {line : String} {e : ParseError}
    (h : parse line = .error e) :
    e.position ≤ line.utf8ByteSize ∧
    (∃ pre rest, line = pre ++ rest ∧ pre.utf8ByteSize = e.position ∧
      e.Describes rest.toList) ∧
    ∀ position expected found, e = .unexpected position expected found →
      (ParseError.foundText found = "end of line" ↔ position = line.utf8ByteSize) := by
  have hpoints : ∃ pre rest, line = pre ++ rest ∧ pre.utf8ByteSize = e.position ∧
      e.Describes rest.toList := by
    cases e with
    | lexical e => exact pointsInto_of_tokenize (parse_eq_lexical_iff.mp h)
    | unexpected position expected found => exact describes_of_unexpected h
  obtain ⟨pre, rest, hline, hposition, hdescribes⟩ := id hpoints
  have hsize : line.utf8ByteSize = e.position + rest.utf8ByteSize := by
    rw [hline, String.utf8ByteSize_append, hposition]
  refine ⟨by omega, hpoints, ?_⟩
  rintro position expected found rfl
  have hend : position = line.utf8ByteSize ↔ rest = "" := by
    rw [hsize, ← String.utf8ByteSize_eq_zero_iff]
    exact ⟨fun heq => by simp only [ParseError.position] at heq; omega,
      fun heq => by simp only [ParseError.position]; omega⟩
  rw [ParseError.foundText_eq_iff, hend]
  cases found with
  | none => exact iff_of_true rfl (String.toList_eq_nil_iff.mp hdescribes)
  | some shown =>
    refine iff_of_false nofun ?_
    rintro rfl
    exact hdescribes.1 (String.toList_eq_nil_iff.mp (List.prefix_nil.mp hdescribes.2))

/-- Behind a letter of two bytes, a parenthesis that nothing opens and a quote that nothing closes;
and a call whose line ends, with a comment, before it does. -/
theorem parse_errors_behind_letter :
    (parse "é )" = .error (.unexpected 3 [.endOfLine] (some ")")) ∧
      ∃ pre rest, "é )" = pre ++ rest ∧ pre.utf8ByteSize = 3 ∧ ")".toList <+: rest.toList) ∧
    (parse "é 'b" = .error (.lexical (.unterminatedString 3)) ∧
      ∃ pre rest, "é 'b" = pre ++ rest ∧ pre.utf8ByteSize = 3 ∧
        ∃ quote cs, rest.toList = quote :: cs ∧ (quote = '"' ∨ quote = '\'') ∧
          ∀ body, Lexeme.Quoted quote body → ¬ body ++ [quote] <+: cs) ∧
    parse "é( # b" = .error (.unexpected 7 Expected.operand none) ∧ 7 = "é( # b".utf8ByteSize := by
  have hend : ∀ n, (Cursor.mk n []).next = (.ok (Token.ending n), ⟨n, []⟩) := fun _ => rfl
  have hunopened : parse "é )" = .error (.unexpected 3 [.endOfLine] (some ")")) := by
    have hname : (Cursor.start "é )").next = (.ok ⟨.name, "é", ⟨0, 2⟩⟩, ⟨2, " )".toList⟩) := rfl
    have hclose : (Cursor.mk 2 " )".toList).next =
        (.ok ⟨.rightParen, ")", ⟨3, 4⟩⟩, ⟨4, []⟩) := rfl
    rw [parse, tokenize, Cursor.tokens_of_next_ok hname, Cursor.tokens_of_next_ok hclose,
      Cursor.tokens_of_next_ok (hend 4)]
    rfl
  have hunclosed : parse "é 'b" = .error (.lexical (.unterminatedString 3)) := by
    have hname : (Cursor.start "é 'b").next =
        (.ok ⟨.name, "é", ⟨0, 2⟩⟩, ⟨2, " 'b".toList⟩) := rfl
    have hquote : (Cursor.mk 2 " 'b".toList).next =
        (.error (.unterminatedString 3), ⟨5, []⟩) := rfl
    rw [parse, tokenize, Cursor.tokens_of_next_ok hname, Cursor.tokens_of_next_error hquote]
    rfl
  have hunended : parse "é( # b" = .error (.unexpected 7 Expected.operand none) := by
    have hname : (Cursor.start "é( # b").next =
        (.ok ⟨.name, "é", ⟨0, 2⟩⟩, ⟨2, "( # b".toList⟩) := rfl
    have hopen : (Cursor.mk 2 "( # b".toList).next =
        (.ok ⟨.leftParen, "(", ⟨2, 3⟩⟩, ⟨3, " # b".toList⟩) := rfl
    have hcomment : (Cursor.mk 3 " # b".toList).next = (.ok (Token.ending 7), ⟨7, []⟩) := rfl
    rw [parse, tokenize, Cursor.tokens_of_next_ok hname, Cursor.tokens_of_next_ok hopen,
      Cursor.tokens_of_next_ok hcomment]
    rfl
  obtain ⟨-, ⟨pre, rest, hline, hsize, hshown⟩, -⟩ := parse_error_points_into_line hunopened
  obtain ⟨-, ⟨pre', rest', hline', hsize', hopen⟩, -⟩ := parse_error_points_into_line hunclosed
  obtain ⟨-, -, hnamed⟩ := parse_error_points_into_line hunended
  exact ⟨⟨hunopened, pre, rest, hline, hsize, hshown.2⟩,
    ⟨hunclosed, pre', rest', hline', hsize', hopen⟩, hunended, (hnamed _ _ _ rfl).mp rfl⟩

end ShapeFault
