import ShapeFault.Expr.Parser
import ShapeFault.Proofs.Lexing.Place

/-!
# Texts in quotes

`Text.quoted` writes a text between two quotes, with a backslash in front of what may not stand
there as it is. Two scans meet what is written: the lexer looks for the closing quote and steps over
whatever a backslash hides, and `unescape` resolves what it hides. They stay in step because both
go on behind the same characters (`Unread`), and an escape is what both step over as a whole
(`escape_cases`). So a quoted text is one token and its value is the text (`parse_quoted`).

Conversely, the scan of any string that the lexer has accepted meets no backslash without a
character behind it (`Lexeme.Quoted.of_unread`).
-/

namespace ShapeFault

open Token (Kind)

namespace Text

variable {quote c d : Char} {cs rest : List Char}

/-- The character `c` as it is written between quotes. -/
def escape (quote c : Char) : List Char :=
  if c = '\\' ∨ c = quote then ['\\', c]
  else if c = '\n' then ['\\', 'n']
  else if c = '\t' then ['\\', 't']
  else [c]

/-- The text `s` in quotes. -/
def quoted (quote : Char) (s : String) : String :=
  String.ofList (quote :: (s.toList.flatMap (escape quote) ++ [quote]))

/-- `Unread cs rest` says that `unescape` comes to a point where it has `rest` still to read of
`cs`. -/
inductive Unread : List Char → List Char → Prop where
  | here {cs : List Char} : Unread cs cs
  | plain {c : Char} {cs rest : List Char} (hc : c ≠ '\\') (h : Unread cs rest) :
      Unread (c :: cs) rest
  | hidden {c : Char} {cs rest : List Char} (h : Unread cs rest) : Unread ('\\' :: c :: cs) rest

/-! ### Resolving escapes -/

theorem unescape_plain (hc : c ≠ '\\') (cs : List Char) :
    unescape (c :: cs) = c :: unescape cs := by
  rw [unescape.eq_4]
  · exact fun h => absurd h hc
  · exact fun _ _ h => absurd h hc

theorem unescape_hidden (h : escaped? d = some c) (cs : List Char) :
    unescape ('\\' :: d :: cs) = c :: unescape cs := by
  rw [unescape, h]

/-- The scan goes on from what it has not read as if nothing stood in front. -/
theorem Unread.exists_front (h : Unread cs rest) :
    ∃ front, unescape cs = front ++ unescape rest := by
  induction h with
  | here => exact ⟨[], rfl⟩
  | @plain c cs rest hc _ ih =>
    obtain ⟨front, hfront⟩ := ih
    exact ⟨c :: front, by rw [unescape_plain hc, hfront, List.cons_append]⟩
  | @hidden c cs rest _ ih =>
    obtain ⟨front, hfront⟩ := ih
    rw [unescape, hfront]
    cases escaped? c with
    | some d => exact ⟨d :: front, rfl⟩
    | none => exact ⟨'\\' :: c :: front, rfl⟩

/-- A character is written as it is, or as a backslash and what stands for it. -/
theorem escape_cases (hquote : quote = '"' ∨ quote = '\'') (c : Char) :
    (escape quote c = [c] ∧ c ≠ quote ∧ c ≠ '\\' ∧ c ≠ '\n') ∨
    ∃ d, escape quote c = ['\\', d] ∧ escaped? d = some c := by
  by_cases hc : c = '\\' ∨ c = quote
  · refine Or.inr ⟨c, if_pos hc, ?_⟩
    rcases hc with rfl | rfl
    · rfl
    · rcases hquote with rfl | rfl <;> rfl
  · rw [escape, if_neg hc]
    by_cases hbreak : c = '\n'
    · exact Or.inr ⟨'n', if_pos hbreak, by rw [hbreak]; rfl⟩
    · rw [if_neg hbreak]
      by_cases htab : c = '\t'
      · exact Or.inr ⟨'t', if_pos htab, by rw [htab]; rfl⟩
      · obtain ⟨hhide, hne⟩ := not_or.mp hc
        exact Or.inl ⟨if_neg htab, hne, hhide, hbreak⟩

/-- **Escapes are resolved to what they were written for.** -/
theorem unescape_escape (hquote : quote = '"' ∨ quote = '\'') (cs : List Char) :
    unescape (cs.flatMap (escape quote)) = cs := by
  induction cs with
  | nil => rfl
  | cons c cs ih =>
    rw [List.flatMap_cons]
    rcases escape_cases hquote c with ⟨hplain, -, hhide, -⟩ | ⟨d, hhidden, hd⟩
    · rw [hplain, List.singleton_append, unescape_plain hhide, ih]
    · rw [hhidden, List.cons_append, List.singleton_append, unescape_hidden hd, ih]

theorem unquote_enclosed (quote : Char) (body : List Char) :
    unquote (String.ofList (quote :: (body ++ [quote]))) = String.ofList (unescape body) := by
  rw [unquote, String.toList_ofList, List.drop_one, List.tail_cons, List.dropLast_concat]

theorem unquote_quoted (hquote : quote = '"' ∨ quote = '\'') (s : String) :
    unquote (quoted quote s) = s := by
  rw [quoted, unquote_enclosed, unescape_escape hquote, String.ofList_toList]

end Text

/-! ### What the lexer accepts -/

namespace Lexeme.Quoted

variable {quote : Char} {cs rest : List Char}

theorem flatMap_escape (hquote : quote = '"' ∨ quote = '\'') (cs : List Char) :
    Quoted quote (cs.flatMap (Text.escape quote)) := by
  induction cs with
  | nil => exact .nil
  | cons c cs ih =>
    rw [List.flatMap_cons]
    rcases Text.escape_cases hquote c with ⟨hplain, hne, hhide, hbreak⟩ | ⟨d, hhidden, -⟩
    · rw [hplain]
      exact .plain hne hhide hbreak ih
    · rw [hhidden]
      exact .hidden ih

/-- The scan that resolves escapes stays in step with the one for the closing quote. -/
theorem of_unread (h : Quoted quote cs) (hrest : Text.Unread cs rest) : Quoted quote rest := by
  induction hrest with
  | here => exact h
  | plain hc _ ih =>
    cases h with
    | plain _ _ _ hcs => exact ih hcs
    | hidden => exact absurd rfl hc
  | hidden _ ih =>
    cases h with
    | plain _ hhide => exact absurd rfl hhide
    | hidden hcs => exact ih hcs

theorem ne_backslash (h : Quoted quote cs) : cs ≠ ['\\'] := by
  rintro rfl
  cases h with
  | plain _ hhide => exact hhide rfl

end Lexeme.Quoted

theorem Stands.quoted {quote : Char} (hquote : quote = '"' ∨ quote = '\'') (s : String) :
    Stands .string (Text.quoted quote s).toList [] := by
  rw [Text.quoted, String.toList_ofList]
  exact Stands.string_alone_iff.mpr ⟨quote, _, rfl, hquote, Lexeme.Quoted.flatMap_escape hquote _⟩

/-- The token of a string stands between two quotes. -/
theorem exists_quoted_of_tokenize {line : String} {ts : List Token} (h : tokenize line = .ok ts)
    {t : Token} (ht : t ∈ ts) (hk : t.kind = .string) : ∃ quote body,
      t.text = String.ofList (quote :: (body ++ [quote])) ∧ (quote = '"' ∨ quote = '\'') ∧
      Lexeme.Quoted quote body := by
  have hstands := stands_of_tokenize h ht (by rw [hk]; decide)
  rw [hk] at hstands
  obtain ⟨quote, body, htext, hquote, hbody⟩ := Stands.string_alone_iff.mp hstands
  exact ⟨quote, body, by rw [← htext, String.ofList_toList], hquote, hbody⟩

/-! ### Lines of one token -/

/-- **A line that is one lexeme** has the token of it, from its start to its end. -/
theorem tokenize_of_stands {k : Kind} {w : String} (h : Stands k w.toList []) :
    tokenize w = .ok [⟨k, w, ⟨0, w.utf8ByteSize⟩⟩, Token.ending w.utf8ByteSize] := by
  obtain ⟨c, cs, hw, hbegins⟩ := h
  rw [List.append_nil] at hbegins
  have hstart : (Cursor.start w).skipTrivia = Cursor.start w :=
    Cursor.skipTrivia_of_solid hw hbegins.solid
  have hstop : (Cursor.start w).advance w.toList.length = ⟨w.utf8ByteSize, []⟩ := by
    simp [Cursor.advance, Cursor.start, Cursor.byteLength_eq]
  have hnext : (Cursor.start w).next =
      (.ok ⟨k, w, ⟨0, w.utf8ByteSize⟩⟩, ⟨w.utf8ByteSize, []⟩) := by
    have hskip : Lexeme.skip (Cursor.start w).rest = c :: cs := by
      rw [Cursor.start, hw, Lexeme.skip_of_solid hbegins.solid]
    rw [Cursor.next_of_rest hskip, hstart, Front.of_eq_token_iff.mpr hbegins, Cursor.answer,
      Front.length, Cursor.token, hstop]
    simp [Cursor.start]
  have hk : k ≠ .endMarker := Front.kind_ne_endMarker (Front.of_eq_token_iff.mpr hbegins)
  have hend : (Cursor.mk w.utf8ByteSize []).next =
      (.ok (Token.ending w.utf8ByteSize), ⟨w.utf8ByteSize, []⟩) := rfl
  rw [tokenize, Cursor.tokens_of_next_ok hnext, if_neg hk, Cursor.tokens_of_next_ok hend]
  rfl

/-! ### Literals -/

/-- A string alone is a literal. -/
theorem parseTokens_string (text : String) (n : Nat) :
    parseTokens [⟨.string, text, ⟨0, n⟩⟩, Token.ending n] =
      .ok (some (.literal (.str text (Text.unquote text)))) :=
  rfl

theorem parse_quoted {quote : Char} (hquote : quote = '"' ∨ quote = '\'') (s : String) :
    parse (Text.quoted quote s) = .ok (some (.literal (.str (Text.quoted quote s) s))) := by
  have hvalue := Text.unquote_quoted hquote s
  simp only [parse, tokenize_of_stands (.quoted hquote s), parseTokens_string, hvalue]

/-- A quote takes one byte. -/
theorem Text.toByteArray_enclosed {quote : Char} (hquote : quote = '"' ∨ quote = '\'')
    (inner : String) :
    (String.ofList (quote :: (inner.toList ++ [quote]))).toByteArray =
      [quote.toUInt8].toByteArray ++ inner.toByteArray ++ [quote.toUInt8].toByteArray := by
  have hbyte : (String.ofList [quote]).toByteArray = [quote.toUInt8].toByteArray := by
    rcases hquote with rfl | rfl <;> rfl
  have hsplit : String.ofList (quote :: (inner.toList ++ [quote])) =
      String.ofList [quote] ++ inner ++ String.ofList [quote] := by
    rw [← List.singleton_append, String.ofList_append, String.ofList_append, String.ofList_toList,
      String.append_assoc]
  rw [hsplit, String.toByteArray_append, String.toByteArray_append, hbyte]

/-- **String literals decode what is encoded.** A text in quotes, with its escapes, is one token and
the literal of the text. And each string of a line starts and ends with the byte of a quote, so what
is read as its value is what the bytes between them say; the scan of them never comes to a backslash
that has no character behind it. -/
theorem string_literals_decode_what_is_encoded :
    (∀ quote : Char, quote = '"' ∨ quote = '\'' → ∀ s : String,
      tokenize (Text.quoted quote s) =
        .ok [⟨.string, Text.quoted quote s, ⟨0, (Text.quoted quote s).utf8ByteSize⟩⟩,
          Token.ending (Text.quoted quote s).utf8ByteSize] ∧
      parse (Text.quoted quote s) = .ok (some (.literal (.str (Text.quoted quote s) s)))) ∧
    ∀ (line : String) (ts : List Token), tokenize line = .ok ts →
      ∀ t ∈ ts, t.kind = .string → ∃ (quote : Char) (inner : String),
        (quote = '"' ∨ quote = '\'') ∧
        t.text.toByteArray = [quote.toUInt8].toByteArray ++ inner.toByteArray ++
          [quote.toUInt8].toByteArray ∧
        Text.unquote t.text = String.ofList (Text.unescape inner.toList) ∧
        ∀ rest, Text.Unread inner.toList rest → rest ≠ ['\\'] ∧
          ∃ front, Text.unescape inner.toList = front ++ Text.unescape rest := by
  refine ⟨fun quote hquote s => ⟨tokenize_of_stands (.quoted hquote s), parse_quoted hquote s⟩, ?_⟩
  intro line ts h t ht hk
  obtain ⟨quote, body, htext, hquote, hbody⟩ := exists_quoted_of_tokenize h ht hk
  refine ⟨quote, String.ofList body, hquote, ?_, ?_, fun rest hrest => ?_⟩
  · rw [htext, ← Text.toByteArray_enclosed hquote, String.toList_ofList]
  · rw [htext, Text.unquote_enclosed, String.toList_ofList]
  · rw [String.toList_ofList] at hrest ⊢
    exact ⟨(hbody.of_unread hrest).ne_backslash, hrest.exists_front⟩

/-- A text with everything that is escaped, in single quotes, and the string of a call, where a
backslash in front of the closing quote is itself hidden. -/
theorem string_literals_with_escapes :
    Text.quoted '\'' "\\'\"\n\té" = "'\\\\\\'\"\\n\\té'" ∧
    parse (Text.quoted '\'' "\\'\"\n\té") =
      .ok (some (.literal (.str (Text.quoted '\'' "\\'\"\n\té") "\\'\"\n\té"))) ∧
    ∃ ts, tokenize "f(\"\\é\\\\\")" = .ok ts ∧ ⟨.string, "\"\\é\\\\\"", ⟨2, 9⟩⟩ ∈ ts ∧
      ∃ (quote : Char) (inner : String), (quote = '"' ∨ quote = '\'') ∧
        "\"\\é\\\\\"".toByteArray = [quote.toUInt8].toByteArray ++ inner.toByteArray ++
          [quote.toUInt8].toByteArray ∧
        Text.unquote "\"\\é\\\\\"" = String.ofList (Text.unescape inner.toList) ∧
        ∀ rest, Text.Unread inner.toList rest → rest ≠ ['\\'] ∧
          ∃ front, Text.unescape inner.toList = front ++ Text.unescape rest := by
  have hname : (Cursor.start "f(\"\\é\\\\\")").next =
      (.ok ⟨.name, "f", ⟨0, 1⟩⟩, ⟨1, "(\"\\é\\\\\")".toList⟩) := rfl
  have hopen : (Cursor.mk 1 "(\"\\é\\\\\")".toList).next =
      (.ok ⟨.leftParen, "(", ⟨1, 2⟩⟩, ⟨2, "\"\\é\\\\\")".toList⟩) := rfl
  have hstring : (Cursor.mk 2 "\"\\é\\\\\")".toList).next =
      (.ok ⟨.string, "\"\\é\\\\\"", ⟨2, 9⟩⟩, ⟨9, [')']⟩) := rfl
  have hclose : (Cursor.mk 9 [')']).next = (.ok ⟨.rightParen, ")", ⟨9, 10⟩⟩, ⟨10, []⟩) := rfl
  have hend : (Cursor.mk 10 []).next = (.ok (Token.ending 10), ⟨10, []⟩) := rfl
  have htokens : tokenize "f(\"\\é\\\\\")" = .ok [⟨.name, "f", ⟨0, 1⟩⟩, ⟨.leftParen, "(", ⟨1, 2⟩⟩,
      ⟨.string, "\"\\é\\\\\"", ⟨2, 9⟩⟩, ⟨.rightParen, ")", ⟨9, 10⟩⟩, Token.ending 10] := by
    rw [tokenize, Cursor.tokens_of_next_ok hname, Cursor.tokens_of_next_ok hopen,
      Cursor.tokens_of_next_ok hstring, Cursor.tokens_of_next_ok hclose,
      Cursor.tokens_of_next_ok hend]
    rfl
  obtain ⟨hencoded, hscan⟩ := string_literals_decode_what_is_encoded
  have hmem : (⟨.string, "\"\\é\\\\\"", ⟨2, 9⟩⟩ : Token) ∈ [⟨.name, "f", ⟨0, 1⟩⟩,
      ⟨.leftParen, "(", ⟨1, 2⟩⟩, ⟨.string, "\"\\é\\\\\"", ⟨2, 9⟩⟩, ⟨.rightParen, ")", ⟨9, 10⟩⟩,
      Token.ending 10] := by decide
  exact ⟨rfl, (hencoded '\'' (Or.inr rfl) _).2, _, htokens, hmem, hscan _ _ htokens _ hmem rfl⟩

end ShapeFault
