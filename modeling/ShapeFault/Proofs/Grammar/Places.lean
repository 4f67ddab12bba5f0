import ShapeFault.Proofs.Grammar.Line
import ShapeFault.Proofs.Grammar.Refusal
import ShapeFault.Proofs.Lexing.NumberValue
import ShapeFault.Proofs.Source.Genuine

/-!
# Lines with the same lexemes

A line is read by the kinds and the texts of its tokens. Where they stand is only reported: two
lines with the same lexemes have the same tree, or both hold nothing to analyse, or both are
refused, each at its own place, for the same reasons (`parse_agrees_of_lexemes`). A number without
a value would be refused with its place in the message, but no line has one.
-/

namespace ShapeFault

open Token (Kind)

namespace Reading

variable {cs : List Construct} {k : Kind} {t : Token}

theorem afterItem_ne_badNumber {a : Node} {is : List IndexItem} {i : IndexItem} :
    afterItem a is cs i k ≠ .error .badNumber := by
  unfold afterItem
  split <;> nofun

theorem afterPart_ne_badNumber {a : Node} {is : List IndexItem} {part : ItemPart}
    {e : Option Node} : afterPart a is part cs e k ≠ .error .badNumber := by
  unfold afterPart
  split
  · nofun
  · exact afterItem_ne_badNumber
  · nofun

theorem withoutOperand_ne_badNumber : withoutOperand cs k ≠ .error .badNumber := by
  unfold withoutOperand
  split <;> first | exact afterPart_ne_badNumber | nofun

theorem afterExpression_ne_badNumber {e : Node} :
    afterExpression cs e k ≠ .error .badNumber := by
  unfold afterExpression
  split
  case h_6 => exact afterPart_ne_badNumber
  case h_7 =>
    split
    · split <;> nofun
    · nofun
  all_goals nofun

/-- A token is refused for its value only if it is a number without one. -/
theorem step_ne_badNumber (ht : t.kind = .number → ∃ l, Literal.ofNumber? t.text = some l)
    (r : Reading) : r.step t ≠ .error .badNumber := by
  unfold step
  split
  · unfold stepOperand
    split
    case h_2 hk =>
      obtain ⟨l, hl⟩ := ht hk
      rw [hl]
      rintro ⟨⟩
    case h_11 => exact withoutOperand_ne_badNumber
    all_goals rintro ⟨⟩
  · unfold stepOperator
    split
    case h_4 =>
      split
      · rintro ⟨⟩
      · exact afterExpression_ne_badNumber
    all_goals rintro ⟨⟩
  · split <;> rintro ⟨⟩
  · split
    · exact afterItem_ne_badNumber
    · rintro ⟨⟩

end Reading

/-- Equal trees, nothing to analyse in both lines, or refusals of both for the same reasons. -/
inductive ParseAgrees :
    Except ParseError (Option Node) → Except ParseError (Option Node) → Prop where
  | ok (tree : Option Node) : ParseAgrees (.ok tree) (.ok tree)
  | unexpected (p q : Nat) (expected : List Expected) (found : Option String) :
      ParseAgrees (.error (.unexpected p expected found)) (.error (.unexpected q expected found))

namespace TokenLine

/-- **Reading on**, by induction on the tokens: they give the same tree or are refused alike. -/
theorem read_agrees {xs ys : List Token} (h : xs.map Token.lexeme = ys.map Token.lexeme)
    (hxs : ∀ t ∈ xs, t.Genuine) (r : Reading) :
    (∃ e, read r xs = .ok e ∧ read r ys = .ok e) ∨
      ∃ left left' as, read r xs = .error (left, .expected as) ∧
        read r ys = .error (left', .expected as) ∧
        left.map Token.lexeme = left'.map Token.lexeme := by
  induction xs generalizing ys r with
  | nil =>
    obtain rfl : ys = [] := by simpa using h
    cases hfinish : r.finish with
    | ok e => exact Or.inl ⟨e, by rw [read, hfinish]; rfl, by rw [read, hfinish]; rfl⟩
    | error e =>
      obtain ⟨as, rfl⟩ := Reading.exists_expected_of_finish hfinish
      exact Or.inr ⟨[], [], as, by rw [read, hfinish]; rfl, by rw [read, hfinish]; rfl, rfl⟩
  | cons t ts ih =>
    cases ys with
    | nil => cases h
    | cons t' ts' =>
      obtain ⟨ht, hts⟩ := List.cons.inj h
      obtain ⟨⟨rest, hstands⟩, hgenuine⟩ := List.forall_mem_cons.mp hxs
      have hvalue : t.kind = .number → ∃ l, Literal.ofNumber? t.text = some l := fun hk =>
        Stands.exists_ofNumber? (hk ▸ hstands)
      simp only [read, ← Reading.step_congr ht]
      cases hstep : r.step t with
      | ok r' => exact ih hts hgenuine r'
      | error e =>
        cases e with
        | badNumber => exact absurd hstep (Reading.step_ne_badNumber hvalue r)
        | expected as => exact Or.inr ⟨t :: ts, t' :: ts', as, rfl, rfl, h⟩

theorem parse_agrees {l l' : TokenLine}
    (h : l.tokens.map Token.lexeme = l'.tokens.map Token.lexeme)
    (hgenuine : ∀ t ∈ l.tokens, t.Genuine) : ParseAgrees l.parse l'.parse := by
  have hidle : l.isIdle = l'.isIdle := isIdle_congr l.stop l'.stop h
  simp only [parse, ← hidle]
  by_cases hl : l.isIdle
  · rw [if_pos hl, if_pos hl]
    exact .ok none
  · rw [if_neg hl, if_neg hl]
    rcases read_agrees h hgenuine .start with ⟨e, he, he'⟩ | ⟨left, left', as, he, he', hleft⟩
    · rw [he, he']
      exact .ok (some e)
    · rw [he, he']
      cases left with
      | nil =>
        obtain rfl : left' = [] := by simpa using hleft
        exact .unexpected _ _ as none
      | cons t ts =>
        cases left' with
        | nil => cases hleft
        | cons t' ts' =>
          have htext : t.text = t'.text := (Prod.mk.inj (List.cons.inj hleft).1).2
          simp only [error, ← htext]
          exact .unexpected _ _ as (some t.text)

end TokenLine

/-- **Places play no part.** Two lines with the same lexemes have equal trees, or hold nothing to
analyse, or are refused for the same reasons. -/
theorem parse_agrees_of_lexemes {line line' : String} {ts ts' : List Token}
    (h : tokenize line = .ok ts) (h' : tokenize line' = .ok ts')
    (hts : ts.map Token.lexeme = ts'.map Token.lexeme) :
    ParseAgrees (parse line) (parse line') := by
  obtain ⟨body, stop, rfl, hbody, hlex⟩ := lexes_of_tokenize h
  obtain ⟨body', stop', rfl, hbody', -⟩ := lexes_of_tokenize h'
  rw [List.map_append, List.map_append] at hts
  have htokens := TokenLine.tokens_ofTokens stop hbody
  have htokens' := TokenLine.tokens_ofTokens stop' hbody'
  simp only [parse, h, h', parseTokens]
  refine TokenLine.parse_agrees ?_ ?_
  · rw [htokens, htokens']
    exact (List.append_inj' hts rfl).1
  · rw [htokens]
    exact fun t ht => hlex.exists_stands _ (List.mem_map_of_mem ht)

end ShapeFault
