import ShapeFault.Token.Lexer

/-!
# The gaps between lexemes

What stands between two lexemes of a text are blanks and comments, and a comment ends only in front
of a line break or with the text itself. `Lexeme.Gap` says so by itself, and `gap_trivia` says that
the characters that are passed over in front of a lexeme form such a gap.
-/

namespace ShapeFault.Lexeme

/-- `Gap cs rest` says that the text `cs`, in front of `rest`, consists of blanks and comments. A
comment runs from its sign up to a line break or the end of the whole text. -/
inductive Gap : List Char → List Char → Prop where
  | nil (rest : List Char) : Gap [] rest
  | blank {c : Char} {cs rest : List Char} (hc : Text.isBlank c) (hcs : Gap cs rest) :
      Gap (c :: cs) rest
  | comment {body cs rest : List Char} (hbody : '\n' ∉ body)
      (hend : ∀ c ∈ (cs ++ rest).head?, c = '\n') (hcs : Gap cs rest) :
      Gap ('#' :: (body ++ cs)) rest

/-- The rest of a comment, with the gap that follows it. -/
def CommentTail (cs rest : List Char) : Prop :=
  ∃ body gap, cs = body ++ gap ∧ '\n' ∉ body ∧ (∀ c ∈ (gap ++ rest).head?, c = '\n') ∧ Gap gap rest

namespace CommentTail

variable {cs rest : List Char}

theorem nil : CommentTail [] [] :=
  ⟨[], [], rfl, List.not_mem_nil, nofun, .nil _⟩

theorem cons {c : Char} (hc : c ≠ '\n') (h : CommentTail cs rest) : CommentTail (c :: cs) rest := by
  obtain ⟨body, gap, rfl, hbody, hend, hgap⟩ := h
  refine ⟨c :: body, gap, rfl, ?_, hend, hgap⟩
  simp [hbody, hc.symm]

/-- A line break ends a comment. -/
theorem ofGap (h : Gap cs rest) : CommentTail ('\n' :: cs) rest :=
  ⟨[], '\n' :: cs, rfl, List.not_mem_nil, fun _ hc => (Option.some.inj hc).symm,
    .blank (by decide) h⟩

theorem gap (h : CommentTail cs rest) : Gap ('#' :: cs) rest := by
  obtain ⟨body, gap, rfl, hbody, hend, hgap⟩ := h
  exact .comment hbody hend hgap

end CommentTail

/-- **What is passed over is a gap.** -/
theorem gap_trivia (cs : List Char) :
    Gap (cs.take (triviaLength false cs)) (cs.drop (triviaLength false cs)) := by
  -- within a comment the same characters are the rest of it
  suffices h : Gap (cs.take (triviaLength false cs)) (cs.drop (triviaLength false cs)) ∧
      CommentTail (cs.take (triviaLength true cs)) (cs.drop (triviaLength true cs)) from h.1
  induction cs with
  | nil => exact ⟨.nil _, .nil⟩
  | cons c cs ih =>
    obtain ⟨hgap, htail⟩ := ih
    constructor
    · by_cases hblank : Text.isBlank c
      · simp only [triviaLength, Bool.false_eq_true, if_false, hblank, if_true,
          List.take_succ_cons, List.drop_succ_cons]
        exact .blank hblank hgap
      · by_cases hsign : c = '#'
        · subst hsign
          simp only [triviaLength, Bool.false_eq_true, if_false, hblank, if_true,
            List.take_succ_cons, List.drop_succ_cons]
          exact htail.gap
        · simp only [triviaLength, Bool.false_eq_true, if_false, hblank, hsign, List.take_zero]
          exact .nil _
    · by_cases hbreak : c = '\n'
      · subst hbreak
        simp only [triviaLength, if_true, bne_self_eq_false, List.take_succ_cons,
          List.drop_succ_cons]
        exact .ofGap hgap
      · have hbne : (c != '\n') = true := by simpa using hbreak
        simp only [triviaLength, if_true, hbne, List.take_succ_cons, List.drop_succ_cons]
        exact .cons hbreak htail

end ShapeFault.Lexeme
