import ShapeFault.Proofs.Lexing.Form
import ShapeFault.Proofs.Lexing.Gap
import ShapeFault.Proofs.Source.Trimmed

/-!
# Lexemes with other separators between them

A separator is made of blanks and of comments that end within it (`Lexeme.Separator`). A lexeme that
stands somewhere stands in front of each separator but the empty one, whatever its kind
(`Stands.of_breaks`), and nothing of a separator is read. So the lexemes of a text are also those of
each text that has them in this order, with other separators between them
(`lexes_respace`).
-/

namespace ShapeFault

open Token (Kind)

namespace Lexeme

/-- Blanks, and comments up to and including a line break. -/
inductive Separator : List Char → Prop where
  | nil : Separator []
  | blank {c : Char} {cs : List Char} (hc : Text.isBlank c) (hcs : Separator cs) :
      Separator (c :: cs)
  | comment {body cs : List Char} (hbody : '\n' ∉ body) (hcs : Separator cs) :
      Separator ('#' :: (body ++ '\n' :: cs))

/-- The rest is empty or starts with a blank or a comment. -/
def Breaks (rest : List Char) : Prop :=
  ∀ c ∈ rest.head?, Text.isBlank c ∨ c = '#'

/-- A separator is a gap in front of everything. -/
theorem Separator.gap {cs : List Char} (h : Separator cs) (rest : List Char) : Gap cs rest := by
  induction h with
  | nil => exact .nil rest
  | blank hc _ ih => exact .blank hc ih
  | @comment body cs hbody _ ih =>
    exact .comment hbody (by rintro c ⟨⟩; rfl) (.blank (by decide) ih)

theorem Gap.breaks {cs rest : List Char} (h : Gap cs rest) (hrest : cs = [] → Breaks rest) :
    Breaks (cs ++ rest) := by
  cases h with
  | nil => exact hrest rfl
  | blank hc =>
    rintro d ⟨⟩
    exact Or.inl hc
  | comment =>
    rintro d ⟨⟩
    exact Or.inr rfl

/-! ### Gaps are skipped -/

/-- In a comment everything up to its end is passed over. -/
theorem triviaLength_comment {body : List Char} (hbody : '\n' ∉ body) (rest : List Char) :
    triviaLength true (body ++ rest) = body.length + triviaLength true rest := by
  induction body with
  | nil => simp
  | cons c cs ih =>
    rw [List.mem_cons, not_or] at hbody
    have hne : (c != '\n') = true := by simpa using Ne.symm hbody.1
    rw [List.cons_append, triviaLength, if_pos rfl, hne, ih hbody.2, List.length_cons]
    omega

/-- A comment ends in front of a line break, which is a blank. -/
theorem triviaLength_end {rest : List Char} (h : ∀ c ∈ rest.head?, c = '\n') :
    triviaLength true rest = triviaLength false rest := by
  cases rest with
  | nil => rfl
  | cons c cs =>
    obtain rfl := h c rfl
    rfl

/-- **A gap is skipped.** -/
theorem Gap.skip_append {cs rest : List Char} (h : Gap cs rest) :
    skip (cs ++ rest) = skip rest := by
  induction h with
  | nil => rfl
  | blank hc _ ih => rw [List.cons_append, skip_blank hc, ih]
  | @comment body cs rest hbody hend _ ih =>
    have hlen : triviaLength false ('#' :: (body ++ (cs ++ rest))) =
        body.length + triviaLength false (cs ++ rest) + 1 := by
      rw [← triviaLength_end hend, ← triviaLength_comment hbody]
      rfl
    rw [← ih, skip, skip, List.cons_append, List.append_assoc, hlen, List.drop_succ_cons,
      ← List.drop_drop, List.drop_left]

/-! ### Characters that end a lexeme -/

namespace Breaks

variable {rest : List Char}

/-- What holds of no blank and not of the sign of a comment holds of no first character. -/
theorem head_of {p : Char → Prop} (h : Breaks rest) (hblank : ∀ c, p c → Text.isBlank c = false)
    (hsign : ¬ p '#') : ∀ c ∈ rest.head?, ¬ p c := by
  intro c hc hp
  rcases h c hc with hc | rfl
  · rw [hblank c hp] at hc
    cases hc
  · exact hsign hp

theorem isDigit_eq_false (h : Breaks rest) : ∀ c ∈ rest.head?, c.isDigit = false := fun c hc =>
  Bool.eq_false_iff.mpr
    (h.head_of (fun _ => Text.isBlank_eq_false_of_isDigit) (by decide) c hc)

theorem continuesWord_eq_false (h : Breaks rest) :
    ∀ c ∈ rest.head?, Text.continuesWord c = false := fun c hc =>
  Bool.eq_false_iff.mpr
    (h.head_of (fun _ => Text.isBlank_eq_false_of_continuesWord) (by decide) c hc)

theorem ne (h : Breaks rest) {d : Char} (hblank : Text.isBlank d = false) (hsign : '#' ≠ d) :
    ∀ c ∈ rest.head?, c ≠ d :=
  h.head_of (fun _ hc => hc ▸ hblank) hsign

theorem calm (h : Breaks rest) : Calm rest := fun c hc =>
  ⟨h.isDigit_eq_false c hc, h.ne (by decide) (by decide) c hc, h.ne (by decide) (by decide) c hc⟩

/-- A number ends in front of a separator, and a point at its end belongs to it. -/
theorem not_point (h : Breaks rest) : fractionLength rest = 0 ∧ pointBelongs rest := by
  cases rest with
  | nil => exact ⟨rfl, rfl⟩
  | cons c cs =>
    have hdot : c ≠ '.' := h.ne (by decide) (by decide) c rfl
    have hword : Text.startsWord c = false := by
      rw [← Bool.not_eq_true]
      exact fun hc => absurd (h.continuesWord_eq_false c rfl)
        (by simp [Text.continuesWord_of_startsWord hc])
    simp [fractionLength, pointBelongs, hdot, hword]

/-- No spelling goes on with a separator. -/
theorem not_extends (h : Breaks rest) (k : Kind) : ∀ c ∈ rest.head?, ¬ k.Extends c := by
  have hall : ∀ l ∈ Kind.punctuation,
      (l.spelling.toList.all fun c => decide (Text.isBlank c = false ∧ c ≠ '#')) = true := by decide
  have hsolid : ∀ c, k.Extends c → Text.isBlank c = false ∧ c ≠ '#' := by
    intro c hc
    obtain ⟨l, hl, -, hat⟩ := hc.getElem?_eq
    exact Text.forall_of_all (hall l hl) c (List.mem_of_getElem? hat)
  exact h.head_of (fun c hc => (hsolid c hc).1) fun hsign => (hsolid '#' hsign).2 rfl

end Breaks

end Lexeme

/-- **Each lexeme ends in front of a separator.** -/
theorem Stands.of_breaks {k : Kind} {w rest rest' : List Char} (h : Stands k w rest)
    (hrest : Lexeme.Breaks rest') : Stands k w rest' := by
  rcases h.kind_cases with rfl | rfl | hk | hk
  · obtain ⟨hfraction, hpoint⟩ := hrest.not_point
    exact (h.number_iff_of_calm hrest.calm).mpr ⟨fun _ => hfraction, fun _ => hpoint⟩
  · exact h.string rest'
  · exact h.word hk hrest.continuesWord_eq_false
  · rw [h.eq_spelling (Or.inl hk)]
    exact .symbol hk (hrest.not_extends k) fun _ => hrest.isDigit_eq_false

/-- The lexemes of a text are those behind its blanks and comments. -/
theorem Lexes.of_skip_eq {cs ds : List Char} {ws : List (Kind × String)} (h : Lexes cs ws)
    (hskip : Lexeme.skip ds = Lexeme.skip cs) : Lexes ds ws := by
  cases h with
  | done hd => exact .done (hskip.trans hd)
  | token hs hf hr => exact .token (hskip.trans hs) hf hr

/-- Texts with a separator in front of each of them, and another one behind. -/
def respace (seps texts : List String) (last : String) : String :=
  String.join (List.zipWith (· ++ ·) seps texts) ++ last

theorem toList_respace_cons (s t : String) (seps texts : List String) (last : String) :
    (respace (s :: seps) (t :: texts) last).toList =
      s.toList ++ (t.toList ++ (respace seps texts last).toList) := by
  simp [respace, String.join_cons]

theorem toList_respace_nil (texts : List String) (last : String) :
    (respace [] texts last).toList = last.toList := by
  simp [respace]

/-- Behind a lexeme the text goes on with a separator. -/
theorem breaks_respace {seps texts : List String} {last : String}
    (hlen : seps.length = texts.length) (hseps : ∀ s ∈ seps, Lexeme.Separator s.toList)
    (hne : ∀ s ∈ seps, s ≠ "") (hlast : Lexeme.Gap last.toList []) :
    Lexeme.Breaks (respace seps texts last).toList := by
  cases seps with
  | nil =>
    rw [toList_respace_nil, ← List.append_nil last.toList]
    exact hlast.breaks fun _ => nofun
  | cons s seps =>
    cases texts with
    | nil => cases hlen
    | cons t texts =>
      rw [toList_respace_cons]
      refine ((hseps s List.mem_cons_self).gap _).breaks fun hs => ?_
      exact absurd (String.toList_eq_nil_iff.mp hs) (hne s List.mem_cons_self)

/-- **Other separators leave the lexemes as they are**, by induction on the lexemes: each of them
ends in front of the separator behind it, and the one before it is skipped. -/
theorem lexes_respace {ws : List (Kind × String)} {seps : List String} {last : String}
    (hws : ∀ w ∈ ws, ∃ rest, Stands w.1 w.2.toList rest) (hlen : seps.length = ws.length)
    (hseps : ∀ s ∈ seps, Lexeme.Separator s.toList) (hne : ∀ s ∈ seps.tail, s ≠ "")
    (hlast : Lexeme.Gap last.toList []) :
    Lexes (respace seps (ws.map Prod.snd) last).toList ws := by
  induction ws generalizing seps with
  | nil =>
    obtain rfl := List.eq_nil_of_length_eq_zero hlen
    rw [toList_respace_nil]
    refine .done ?_
    rw [← List.append_nil last.toList, hlast.skip_append]
    rfl
  | cons w ws ih =>
    cases seps with
    | nil => cases hlen
    | cons s seps =>
      obtain ⟨⟨rest, hstands⟩, hws⟩ := List.forall_mem_cons.mp hws
      obtain ⟨hs, hseps⟩ := List.forall_mem_cons.mp hseps
      have hlexes := ih hws (Nat.succ.inj hlen) hseps fun t ht => hne t (List.mem_of_mem_tail ht)
      have hbreaks : Lexeme.Breaks (respace seps (ws.map Prod.snd) last).toList :=
        breaks_respace (by rw [List.length_map, Nat.succ.inj hlen]) hseps hne hlast
      rw [List.map_cons, toList_respace_cons]
      exact (lexes_append_iff.mpr ⟨hstands.of_breaks hbreaks, hlexes⟩).of_skip_eq
        (hs.gap _).skip_append

end ShapeFault
