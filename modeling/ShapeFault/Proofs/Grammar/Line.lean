import ShapeFault.Proofs.Grammar.Complete
import ShapeFault.Proofs.Lexing.Lexes

/-!
# Lines and their trees

The grammar and the reader of token lines put together with the lexemes of a text: `parse` gives the
tree of a line exactly if the line has tokens, holds something to analyse and derives the tree from
its tokens (`parse_eq_ok_some_iff`). What `parse` finds depends on the lexemes alone
(`DerivesLine.of_lexemes`), so places play no part in it.
-/

namespace ShapeFault

open Token (Kind)

theorem TokenLine.tokens_ofTokens_append {xs : List Token} (h : ∀ t ∈ xs, t.kind ≠ .endMarker)
    (ys : List Token) : (ofTokens (xs ++ ys)).tokens = xs ++ (ofTokens ys).tokens := by
  have hall : ∀ t ∈ xs, decide (t.kind ≠ .endMarker) = true := by simpa using h
  exact List.takeWhile_append_of_pos hall

/-- The tokens of a line up to the mark of its end. -/
theorem TokenLine.tokens_ofTokens {body : List Token} (stop : Nat)
    (h : ∀ t ∈ body, t.kind ≠ .endMarker) :
    (TokenLine.ofTokens (body ++ [Token.ending stop])).tokens = body :=
  (tokens_ofTokens_append h _).trans (List.append_nil body)

/-- What `TokenLine.parse` finds in a line that holds something to analyse. -/
theorem TokenLine.parse_eq_ok_some_iff {l : TokenLine} {e : Node} :
    l.parse = .ok (some e) ↔ l.isIdle = false ∧ DerivesLine l.tokens e := by
  rw [← read_start_eq_ok_iff, TokenLine.parse]
  cases l.isIdle with
  | true => simp
  | false =>
    simp only [Bool.false_eq_true, if_false, true_and]
    cases TokenLine.read .start l.tokens <;> simp

/-- **The tree of a line.** `parse` finds a tree exactly if the line has tokens, is not idle, and
the tree is derivable from its tokens. -/
theorem parse_eq_ok_some_iff {line : String} {e : Node} :
    parse line = .ok (some e) ↔ ∃ body stop, tokenize line = .ok (body ++ [Token.ending stop]) ∧
      (∀ t ∈ body, t.kind ≠ .endMarker) ∧ (⟨body, stop⟩ : TokenLine).isIdle = false ∧
      DerivesLine body e := by
  unfold parse
  constructor
  · intro h
    split at h
    · rename_i ts hts
      obtain ⟨body, stop, rfl, hbody, -⟩ := lexes_of_tokenize hts
      have htokens := TokenLine.tokens_ofTokens stop hbody
      obtain ⟨hidle, hline⟩ := TokenLine.parse_eq_ok_some_iff.mp h
      simp only [TokenLine.isIdle, htokens] at hidle
      exact ⟨body, stop, hts, hbody, hidle, htokens ▸ hline⟩
    · cases h
  · rintro ⟨body, stop, hts, hbody, hidle, hline⟩
    have htokens := TokenLine.tokens_ofTokens stop hbody
    simp only [hts]
    refine TokenLine.parse_eq_ok_some_iff.mpr ⟨?_, htokens.symm ▸ hline⟩
    simpa only [TokenLine.isIdle, htokens] using hidle

/-! ### Places play no part -/

theorem Reading.step_congr {t t' : Token} (h : t.lexeme = t'.lexeme) (r : Reading) :
    r.step t = r.step t' := by
  obtain ⟨k, text, _⟩ := t
  obtain ⟨k', text', _⟩ := t'
  obtain ⟨rfl, rfl⟩ := Prod.mk.inj h
  rfl

theorem TokenLine.read_congr {xs ys : List Token} (h : xs.map Token.lexeme = ys.map Token.lexeme)
    {r : Reading} {e : Node} (hr : TokenLine.read r xs = .ok e) : TokenLine.read r ys = .ok e := by
  induction xs generalizing ys r with
  | nil =>
    obtain rfl : ys = [] := by simpa using h
    exact hr
  | cons t ts ih =>
    cases ys with
    | nil => cases h
    | cons t' ts' =>
      obtain ⟨ht, hts⟩ := List.cons.inj h
      simp only [TokenLine.read, Reading.step_congr ht] at hr ⊢
      split at hr
      · exact ih hts hr
      · cases hr

/-- Tokens with the same lexemes have the same trees. -/
theorem DerivesLine.of_lexemes {xs ys : List Token} {e : Node} (hx : DerivesLine xs e)
    (h : xs.map Token.lexeme = ys.map Token.lexeme) : DerivesLine ys e :=
  read_start_eq_ok_iff.mp (TokenLine.read_congr h (read_start_eq_ok_iff.mpr hx))

theorem TokenLine.isIdle_congr {xs ys : List Token} (stop stop' : Nat)
    (h : xs.map Token.lexeme = ys.map Token.lexeme) :
    (⟨xs, stop⟩ : TokenLine).isIdle = (⟨ys, stop'⟩ : TokenLine).isIdle := by
  cases xs with
  | nil =>
    obtain rfl : ys = [] := by simpa using h
    rfl
  | cons t ts =>
    cases ys with
    | nil => cases h
    | cons t' ts' =>
      obtain ⟨hk, htext⟩ := Prod.mk.inj (List.cons.inj h).1
      simp only [TokenLine.isIdle, hk, htext]

/-! ### The main statement -/

/-- **The reader of lines accepts exactly the grammar and builds the one tree of it.** The line has
tokens, and the first of them is neither the mark of the end nor the keyword of a statement. -/
theorem parse_eq_some_iff_derivesLine {line : String} {ts : List Token}
    (htokens : tokenize line = .ok ts)
    (hfirst : ∀ t ∈ ts.head?, t.kind ≠ .endMarker ∧
      ¬ (t.kind = .name ∧ t.text ∈ TokenLine.statementWords)) :
    (∀ e, parse line = .ok (some e) ↔ DerivesLine ts.dropLast e) ∧
      ∀ e e', DerivesLine ts.dropLast e → DerivesLine ts.dropLast e' → e = e' := by
  refine ⟨fun e => ?_, fun e e' h h' => h.unique h'⟩
  obtain ⟨body, stop, rfl, hbody, -⟩ := lexes_of_tokenize htokens
  rw [List.dropLast_concat, parse_eq_ok_some_iff]
  constructor
  · rintro ⟨body', stop', htokens', -, -, hline⟩
    have heq := Except.ok.inj (htokens.symm.trans htokens')
    obtain ⟨rfl, -⟩ := List.append_inj' heq rfl
    exact hline
  · intro hline
    refine ⟨body, stop, htokens, hbody, ?_, hline⟩
    cases body with
    | nil => exact absurd rfl (hfirst (Token.ending stop) rfl).1
    | cons t ts =>
      have ht := (hfirst t rfl).2
      simpa [TokenLine.isIdle] using ht

/-- The sign in `-a ** b` belongs to the base of the power. -/
theorem parse_minus_a_power_b :
    ∃ ts, tokenize "-a ** b" = .ok ts ∧
      (∀ t ∈ ts.head?, t.kind ≠ .endMarker ∧
        ¬ (t.kind = .name ∧ t.text ∈ TokenLine.statementWords)) ∧
      parse "-a ** b" = .ok (some (.binary .pow (.unary .neg (.name "a")) (.name "b"))) := by
  have hlex : Lexes "-a ** b".toList
      [(.minus, "-"), (.name, "a"), (.doubleStar, "**"), (.name, "b")] :=
    @Lexes.token _ "a ** b".toList '-' _ 1 _ rfl (by decide) <|
    @Lexes.token _ " ** b".toList 'a' _ 1 _ rfl (by decide) <|
    @Lexes.token _ "* b".toList '*' _ 2 _ rfl (by decide) <|
    @Lexes.token _ [] 'b' _ 1 _ rfl (by decide) <| .done rfl
  obtain ⟨body, stop, htokens, -, hws⟩ := tokenize_of_lexes hlex
  simp only [List.map_eq_cons_iff, List.map_eq_nil_iff, Token.lexeme, Prod.mk.injEq] at hws
  obtain ⟨s, _, rfl, ⟨hs, -⟩, a, _, rfl, ⟨ha, ha'⟩, p, _, rfl, ⟨hp, -⟩, b, _, rfl, ⟨hb, hb'⟩,
    rfl⟩ := hws
  have hfirst : ∀ t ∈ ([s, a, p, b] ++ [Token.ending stop]).head?, t.kind ≠ .endMarker ∧
      ¬ (t.kind = .name ∧ t.text ∈ TokenLine.statementWords) := by
    simp [hs]
  refine ⟨_, htokens, hfirst, ((parse_eq_some_iff_derivesLine htokens hfirst).1 _).mpr ?_⟩
  have hbase : Derives [s, a] (.expression .unary (.unary .neg (.name a.text))) :=
    .unary hs ((Derives.name ha).loosen (by decide))
  have hexponent : Derives [b] (.expression .power (.name b.text)) :=
    (Derives.name hb).loosen (by decide)
  rw [← ha', ← hb']
  exact .expression ((Derives.power hbase hp hexponent).loosen (by decide))

end ShapeFault
