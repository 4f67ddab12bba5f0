import ShapeFault.Token.Lexer

/-!
# The lexemes of a text

A lexeme is a token without its place: a kind and a text. `Lexes cs ws` says that the text `cs`
consists of the lexemes `ws`, with blanks and comments between them, each lexeme being what the
text from there on begins with. This is the view of `tokenize` in which two texts can be compared:
`tokenize` succeeds exactly on the texts that consist of lexemes, and its tokens carry them
(`lexes_of_tokenize`, `tokenize_of_lexes`).
-/

namespace ShapeFault

open Token (Kind)

/-- A token without its place. -/
def Token.lexeme (t : Token) : Kind × String :=
  (t.kind, t.text)

/-- A text without the blanks and comments at its front. -/
def Lexeme.skip (cs : List Char) : List Char :=
  cs.drop (Lexeme.triviaLength false cs)

/-- `Lexes cs ws` says that the text `cs` consists of the lexemes `ws`. -/
inductive Lexes : List Char → List (Kind × String) → Prop where
  | done {cs : List Char} (h : Lexeme.skip cs = []) : Lexes cs []
  | token {cs rest : List Char} {c : Char} {k : Kind} {n : Nat} {ws : List (Kind × String)}
      (hskip : Lexeme.skip cs = c :: rest) (hfront : Front.of c rest = .token k n)
      (hrest : Lexes ((c :: rest).drop n) ws) :
      Lexes cs ((k, String.ofList ((c :: rest).take n)) :: ws)

namespace Front

theorem mem_keywords_ofWord (word : String) :
    Kind.ofWord word ∈ Kind.keywords ∨ Kind.ofWord word = .name := by
  unfold Kind.ofWord
  cases h : Kind.keywords.find? fun k => k.spelling = word with
  | none => exact Or.inr rfl
  | some k => exact Or.inl (List.mem_of_find?_eq_some h)

/-- No text begins with the mark that ends a line. -/
theorem kind_ne_endMarker {c : Char} {cs : List Char} {k : Kind} {n : Nat}
    (h : of c cs = .token k n) : k ≠ .endMarker := by
  unfold of at h
  split at h
  · simp only at h
    split at h <;> cases h
    decide
  · split at h
    · split at h <;> cases h
      decide
    · split at h
      · cases h
        rcases mem_keywords_ofWord (String.ofList ((c :: cs).take (Lexeme.wordLength (c :: cs))))
          with hk | hk
        · have : ∀ k ∈ Kind.keywords, k ≠ .endMarker := by decide
          exact this _ hk
        · rw [hk]
          decide
      · split at h
        · rename_i k' hk
          cases h
          have : ∀ k ∈ Kind.punctuation, k ≠ .endMarker := by decide
          exact this _ (List.mem_of_find?_eq_some hk)
        · cases h

end Front

namespace Cursor

/-- The next token or error, by what stands behind the blanks and comments. -/
theorem next_of_rest {s : Cursor} {c : Char} {cs : List Char} (h : Lexeme.skip s.rest = c :: cs) :
    s.next = (s.skipTrivia.answer c (Front.of c cs),
      s.skipTrivia.advance (Front.of c cs).length) := by
  have hrest : s.skipTrivia.rest = c :: cs := h
  simp only [next, hrest]

theorem next_of_rest_nil {s : Cursor} (h : Lexeme.skip s.rest = []) :
    s.next = (.ok (Token.ending s.skipTrivia.offset), s.skipTrivia) := by
  have hrest : s.skipTrivia.rest = [] := h
  simp only [next, hrest]

theorem tokens_of_next_error {s s' : Cursor} {e : LexError} (h : s.next = (.error e, s')) :
    s.tokens = .error e := by
  rw [tokens.eq_def]
  split
  · rename_i heq
    rw [h] at heq
    cases heq
    rfl
  · rename_i heq
    rw [h] at heq
    cases heq

/-- The tokens of a text, by the first one of them. -/
theorem tokens_of_next_ok {s s' : Cursor} {t : Token} (h : s.next = (.ok t, s')) :
    s.tokens = if t.kind = .endMarker then .ok [t] else s'.tokens.map (t :: ·) := by
  rw [tokens.eq_def]
  split
  · rename_i heq
    rw [h] at heq
    cases heq
  · rename_i heq
    rw [h] at heq
    cases heq
    by_cases ht : t.kind = .endMarker
    · simp only [ht, dif_pos, if_true]
    · simp only [ht, dif_neg, not_false_eq_true, if_false]
      cases s'.tokens <;> rfl

/-- A text that has tokens is at its end, or begins with a token and has tokens behind it. -/
theorem tokens_cases {s : Cursor} {ts : List Token} (h : s.tokens = .ok ts) :
    (Lexeme.skip s.rest = [] ∧ ts = [Token.ending s.skipTrivia.offset]) ∨
    ∃ c rest k n ts', Lexeme.skip s.rest = c :: rest ∧ Front.of c rest = .token k n ∧
      (s.skipTrivia.advance n).rest.length < s.rest.length ∧
      (s.skipTrivia.advance n).tokens = .ok ts' ∧ ts = s.skipTrivia.token k n :: ts' := by
  cases hskip : Lexeme.skip s.rest with
  | nil =>
    rw [tokens_of_next_ok (next_of_rest_nil hskip)] at h
    exact Or.inl ⟨rfl, by simpa [Token.ending] using h.symm⟩
  | cons c rest =>
    have hnext := next_of_rest hskip
    cases hfront : Front.of c rest with
    | token k n =>
      have hk : (s.skipTrivia.token k n).kind ≠ .endMarker := Front.kind_ne_endMarker hfront
      simp only [hfront, answer, Front.length] at hnext
      have hlt := length_rest_next_lt hnext hk
      rw [tokens_of_next_ok hnext, if_neg hk] at h
      cases hts : (s.skipTrivia.advance n).tokens with
      | error e =>
        rw [hts] at h
        cases h
      | ok ts' =>
        rw [hts] at h
        cases h
        exact Or.inr ⟨c, rest, k, n, ts', rfl, hfront, hlt, hts, rfl⟩
    | largeNumber n | openString n | unknown n =>
      rw [hfront] at hnext
      rw [tokens_of_next_error hnext] at h
      cases h

/-- The tokens of a text carry its lexemes, and the mark of the end comes last. -/
theorem lexes_of_tokens {s : Cursor} {ts : List Token} (h : s.tokens = .ok ts) :
    ∃ body stop, ts = body ++ [Token.ending stop] ∧ (∀ t ∈ body, t.kind ≠ .endMarker) ∧
      Lexes s.rest (body.map Token.lexeme) := by
  -- each token shortens the rest, hence the induction on its length
  induction hn : s.rest.length using Nat.strongRecOn generalizing s ts with
  | ind n ih =>
    subst hn
    rcases tokens_cases h with
      ⟨hskip, rfl⟩ | ⟨c, rest, k, n, ts, hskip, hfront, hlt, hts, rfl⟩
    · exact ⟨[], _, rfl, nofun, .done hskip⟩
    · obtain ⟨body, stop, rfl, hbody, hlex⟩ := ih _ hlt hts rfl
      have hrest : s.skipTrivia.rest = c :: rest := hskip
      refine ⟨_ :: body, stop, rfl, List.forall_mem_cons.mpr ⟨?_, hbody⟩, ?_⟩
      · exact Front.kind_ne_endMarker hfront
      · have := Lexes.token hskip hfront (by simpa [advance, hrest] using hlex)
        simpa [Token.lexeme, token, hrest] using this

/-- A text that consists of lexemes has tokens, and they carry the lexemes. -/
theorem tokens_of_lexes {cs : List Char} {ws : List (Kind × String)} (h : Lexes cs ws) :
    ∀ {s : Cursor}, s.rest = cs → ∃ body stop, s.tokens = .ok (body ++ [Token.ending stop]) ∧
      (∀ t ∈ body, t.kind ≠ .endMarker) ∧ body.map Token.lexeme = ws := by
  induction h with
  | done hskip =>
    rintro s rfl
    refine ⟨[], s.skipTrivia.offset, ?_, by simp, rfl⟩
    rw [tokens_of_next_ok (next_of_rest_nil hskip)]
    rfl
  | @token cs rest c k n ws hskip hfront _ ih =>
    rintro s rfl
    have hk : (s.skipTrivia.token k n).kind ≠ .endMarker := Front.kind_ne_endMarker hfront
    have hrest : s.skipTrivia.rest = c :: rest := hskip
    have hnext := next_of_rest hskip
    simp only [hfront, answer, Front.length] at hnext
    obtain ⟨body, stop, htokens, hbody, hws⟩ :=
      @ih (s.skipTrivia.advance n) (by simp [advance, hrest])
    refine ⟨s.skipTrivia.token k n :: body, stop, ?_, ?_, ?_⟩
    · rw [tokens_of_next_ok hnext, if_neg hk, htokens]
      rfl
    · simpa [hk] using hbody
    · simp [Token.lexeme, token, hrest, hws]

end Cursor

/-- The tokens of a line carry its lexemes, and the mark of the end comes last and only there. -/
theorem lexes_of_tokenize {line : String} {ts : List Token} (h : tokenize line = .ok ts) :
    ∃ body stop, ts = body ++ [Token.ending stop] ∧ (∀ t ∈ body, t.kind ≠ .endMarker) ∧
      Lexes line.toList (body.map Token.lexeme) :=
  Cursor.lexes_of_tokens h

/-- A line that consists of lexemes has tokens, and they carry the lexemes. -/
theorem tokenize_of_lexes {line : String} {ws : List (Kind × String)}
    (h : Lexes line.toList ws) :
    ∃ body stop, tokenize line = .ok (body ++ [Token.ending stop]) ∧
      (∀ t ∈ body, t.kind ≠ .endMarker) ∧ body.map Token.lexeme = ws :=
  Cursor.tokens_of_lexes h rfl

end ShapeFault
