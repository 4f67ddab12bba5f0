import ShapeFault.CommandLine
import ShapeFault.Proofs.Grammar.Places
import ShapeFault.Proofs.Lexing.Separator

/-!
# Blanks and comments never matter

Main statement: a line and the same tokens with other separators between them have the same
lexemes, trees and diagnoses (`respaced_line_is_read_alike`).
-/

namespace ShapeFault

open Token (Kind)

/-- What a diagnosis says apart from the line as it was written. -/
def Diagnosis.verdict (d : Diagnosis) : String × Option String × String :=
  (d.offending, d.explanation, d.message)

/-- Lines that are read alike have the same verdicts. -/
theorem Policy.verdict_eq_of_parse_agrees {V E : Type} (p : Policy) (scene : Scene V E)
    {line line' : String} (h : ParseAgrees (parse line) (parse line')) (message : String) :
    (p.diagnose scene line message).diagnosis.map Diagnosis.verdict =
      (p.diagnose scene line' message).diagnosis.map Diagnosis.verdict := by
  unfold diagnose
  by_cases hp : p.isInteresting message
  · rw [if_pos hp, if_pos hp]
    revert h
    generalize parse line = x
    generalize parse line' = y
    intro h
    cases h with
    | unexpected => rfl
    | ok tree =>
      cases tree with
      | none => rfl
      | some e =>
        simp only
        split <;> rfl
  · rw [if_neg hp, if_neg hp]

/-- **Blanks and comments never matter.** If a line has the tokens `ts`, then so has each line with
the same texts and other separators: any number of blanks and closed comments in front of the
texts, at least one between two of them, and behind the last one a gap, whose comment may run to the
end. Both lines have equal trees, or hold nothing to analyse, or are refused for the same reasons,
and every session comes to the same verdict on them. -/
theorem respaced_line_is_read_alike {line : String} {ts : List Token}
    (htokens : tokenize line = .ok ts) {seps : List String} {last : String}
    (hlen : seps.length = ts.dropLast.length)
    (hseps : ∀ s ∈ seps, Lexeme.Separator s.toList) (hne : ∀ s ∈ seps.tail, s ≠ "")
    (hlast : Lexeme.Gap last.toList []) :
    (∃ ts', tokenize (respace seps (ts.dropLast.map Token.text) last) = .ok ts' ∧
      ts'.map Token.lexeme = ts.map Token.lexeme) ∧
    ParseAgrees (parse line) (parse (respace seps (ts.dropLast.map Token.text) last)) ∧
    ∀ (V E : Type) (s : Session) (scene : Scene V E) (message : String),
      (s.diagnose scene line message).1.diagnosis.map Diagnosis.verdict =
        (s.diagnose scene (respace seps (ts.dropLast.map Token.text) last)
          message).1.diagnosis.map Diagnosis.verdict := by
  obtain ⟨body, stop, rfl, hbody, hlex⟩ := lexes_of_tokenize htokens
  rw [List.dropLast_concat] at hlen ⊢
  have hrespaced : Lexes (respace seps (body.map Token.text) last).toList
      (body.map Token.lexeme) := by
    have := lexes_respace hlex.exists_stands (by rw [List.length_map, hlen]) hseps hne hlast
    rwa [List.map_map] at this
  obtain ⟨body', stop', htokens', -, hbody'⟩ := tokenize_of_lexes hrespaced
  have hlexemes : (body ++ [Token.ending stop]).map Token.lexeme =
      (body' ++ [Token.ending stop']).map Token.lexeme := by
    rw [List.map_append, List.map_append, hbody']
    rfl
  have hparse := parse_agrees_of_lexemes htokens htokens' hlexemes
  exact ⟨⟨_, htokens', hlexemes.symm⟩, hparse, fun V E s scene message =>
    s.policy.verdict_eq_of_parse_agrees scene hparse message⟩

/-- A number in front of two points, with a comment between them. -/
theorem respaced_number_before_points :
    (∃ ts, tokenize "1 .# a\n.\treal # b" = .ok ts ∧ ts.map Token.lexeme =
      [(.number, "1"), (.dot, "."), (.dot, "."), (.name, "real"), (.endMarker, "")]) ∧
      ParseAgrees (parse "1..real") (parse "1 .# a\n.\treal # b") := by
  have hnumber : (Cursor.start "1..real").next =
      (.ok ⟨.number, "1", ⟨0, 1⟩⟩, ⟨1, "..real".toList⟩) := rfl
  have hpoint : (Cursor.mk 1 "..real".toList).next =
      (.ok ⟨.dot, ".", ⟨1, 2⟩⟩, ⟨2, ".real".toList⟩) := rfl
  have hpoint' : (Cursor.mk 2 ".real".toList).next =
      (.ok ⟨.dot, ".", ⟨2, 3⟩⟩, ⟨3, "real".toList⟩) := rfl
  have hname : (Cursor.mk 3 "real".toList).next =
      (.ok ⟨.name, "real", ⟨3, 7⟩⟩, ⟨7, []⟩) := rfl
  have hend : (Cursor.mk 7 []).next = (.ok (Token.ending 7), ⟨7, []⟩) := rfl
  have htokens : tokenize "1..real" = .ok [⟨.number, "1", ⟨0, 1⟩⟩, ⟨.dot, ".", ⟨1, 2⟩⟩,
      ⟨.dot, ".", ⟨2, 3⟩⟩, ⟨.name, "real", ⟨3, 7⟩⟩, Token.ending 7] := by
    rw [tokenize, Cursor.tokens_of_next_ok hnumber, Cursor.tokens_of_next_ok hpoint,
      Cursor.tokens_of_next_ok hpoint', Cursor.tokens_of_next_ok hname,
      Cursor.tokens_of_next_ok hend]
    rfl
  have hcomment : Lexeme.Separator "# a\n".toList :=
    @Lexeme.Separator.comment " a".toList [] (by decide) .nil
  have hseps : ∀ s ∈ ["", " ", "# a\n", "\t"], Lexeme.Separator s.toList := by
    have htab : Lexeme.Separator "\t".toList := .blank (by decide) .nil
    simp only [List.forall_mem_cons]
    exact ⟨.nil, .blank (by decide) .nil, hcomment, htab, by simp⟩
  have hlast : Lexeme.Gap " # b".toList [] :=
    .blank (by decide) (@Lexeme.Gap.comment " b".toList [] [] (by decide) (by simp) (.nil _))
  obtain ⟨⟨ts, hts, hlexemes⟩, hparse, -⟩ :=
    respaced_line_is_read_alike htokens rfl hseps (by decide) hlast
  exact ⟨⟨ts, hts, hlexemes⟩, hparse⟩

end ShapeFault
