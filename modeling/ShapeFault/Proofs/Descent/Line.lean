import Mathlib.Data.List.TakeWhile
import ShapeFault.Proofs.Descent.Brackets
import ShapeFault.Proofs.Lexing.Quotation

/-!
# A descent stops at the first mark of an end

The runs of a whole line. A run ends whatever the tokens are, its position stays in front of the
first mark of an end or on it, and each call that returns and each round of a loop has moved the
position forward. Its result is that of `parseTokens`, which does not even have the tokens behind
that mark, so on a line of text it is that of `parse` (`Descent.result_of_tokenize`). The main
result is `descent_stays_before_first_mark`.
-/

namespace ShapeFault

open Token (Kind)

/-! ### Texts in quotes -/

/-- The text begins and ends with a quote. The two may be the same. -/
def Text.InQuotes (s : String) : Prop :=
  (∃ q ∈ s.toList.head?, q = '"' ∨ q = '\'') ∧ ∃ q ∈ s.toList.getLast?, q = '"' ∨ q = '\''

theorem Text.isValid_append (s t : String) :
    (String.Pos.Raw.mk s.utf8ByteSize).isValid (s ++ t) := by
  rw [String.Pos.Raw.isValid_eq_true_iff, String.Pos.Raw.isValid_iff_exists_append]
  exact ⟨s, t, rfl, rfl⟩

theorem Text.utf8ByteSize_quote {q : Char} (hq : q = '"' ∨ q = '\'') :
    (String.singleton q).utf8ByteSize = 1 := by
  rcases hq with rfl | rfl <;> rfl

theorem Text.InQuotes.hasInside {s : String} (h : InQuotes s) : hasInside s := by
  obtain ⟨⟨q, hhead, hq⟩, q', hlast, hq'⟩ := h
  obtain ⟨cs, hcs⟩ := List.head?_eq_some_iff.mp hhead
  obtain ⟨cs', hcs'⟩ := List.getLast?_eq_some_iff.mp hlast
  have hfront : s = String.singleton q ++ String.ofList cs := by
    rw [← String.toList_inj, hcs]
    simp
  have hback : s = String.ofList cs' ++ String.singleton q' := by
    rw [← String.toList_inj, hcs']
    simp
  have hone : (String.Pos.Raw.mk 1).isValid s := by
    have := Text.isValid_append (String.singleton q) (String.ofList cs)
    rwa [← hfront, Text.utf8ByteSize_quote hq] at this
  have hsize : s.utf8ByteSize - 1 = (String.ofList cs').utf8ByteSize := by
    rw [hback, String.utf8ByteSize_append, Text.utf8ByteSize_quote hq']
    omega
  refine Bool.and_eq_true_iff.mpr ⟨hone, ?_⟩
  rw [hsize]
  rcases Nat.le_total (String.ofList cs').utf8ByteSize 1 with hle | hle
  · rwa [Nat.max_eq_right hle]
  · rw [Nat.max_eq_left hle]
    have := Text.isValid_append (String.ofList cs') (String.singleton q')
    rwa [← hback] at this

/-! ### Lists of tokens -/

namespace TokenLine

variable {body : List Token}

theorem ofTokens_append_mark (hbody : ∀ t ∈ body, t.kind ≠ .endMarker) {mark : Token}
    (hmark : mark.kind = .endMarker) (after : List Token) :
    ofTokens (body ++ mark :: after) = ⟨body, mark.span.start⟩ := by
  have hfind : (body ++ mark :: after).find? (fun t => decide (t.kind = .endMarker)) = some mark :=
    List.find?_eq_some_iff_append.mpr ⟨by simpa using hmark, body, after, rfl, by simpa using hbody⟩
  have htake : (body ++ mark :: after).takeWhile (fun t => decide (t.kind ≠ .endMarker)) =
      body := by
    rw [List.takeWhile_append_of_pos (by simpa using hbody), List.takeWhile_cons_of_neg (by simpa),
      List.append_nil]
  simp only [ofTokens, hfind, htake]

theorem ofTokens_of_forall_ne (hbody : ∀ t ∈ body, t.kind ≠ .endMarker) :
    ofTokens body = ⟨body, Descent.lastStop body⟩ := by
  have hfind : body.find? (fun t => decide (t.kind = .endMarker)) = none := by simpa using hbody
  have htake : body.takeWhile (fun t => decide (t.kind ≠ .endMarker)) = body :=
    List.takeWhile_eq_self_iff.mpr (by simpa using hbody)
  simp only [ofTokens, hfind, htake, Descent.lastStop]

/-- A line that is not idle is read from its first token on. -/
theorem parse_of_not_idle {l : TokenLine} (h : l.isIdle = false) :
    l.parse = (l.outcome .start 0).map some := by
  simp only [parse, h, Bool.false_eq_true, if_false, outcome, List.drop_zero]
  cases read .start l.tokens <;> rfl

end TokenLine

/-- The first mark of a list, if it has one. -/
theorem exists_first_mark (ts : List Token) : (∀ t ∈ ts, t.kind ≠ .endMarker) ∨
    ∃ body mark after, ts = body ++ mark :: after ∧ (∀ t ∈ body, t.kind ≠ .endMarker) ∧
      mark.kind = .endMarker := by
  cases hfind : ts.find? (·.kind = .endMarker) with
  | none => exact Or.inl (by simpa using hfind)
  | some mark =>
    obtain ⟨hmark, body, after, hts, hbody⟩ := List.find?_eq_some_iff_append.mp hfind
    exact Or.inr ⟨body, mark, after, hts, by simpa using hbody, by simpa using hmark⟩

namespace Descent

theorem ended_of_forall_ne {ts : List Token} (h : ∀ t ∈ ts, t.kind ≠ .endMarker) :
    ended ts = ts ++ [Token.ending (lastStop ts)] := by
  refine if_pos ?_
  rw [Option.all_eq_true]
  intro t ht
  simpa using h t (List.mem_of_getLast? ht)

/-- A list with its mark begins with the tokens of its line, and then comes the mark that ends it,
of its own or put there. -/
theorem exists_ended_eq (ts : List Token) : ∃ body mark after,
    ended ts = body ++ mark :: after ∧ (∀ t ∈ body, t.kind ≠ .endMarker) ∧
      mark.kind = .endMarker ∧ TokenLine.ofTokens ts = ⟨body, mark.span.start⟩ := by
  rcases exists_first_mark ts with hts | ⟨body, mark, after, rfl, hbody, hmark⟩
  · exact ⟨ts, Token.ending (lastStop ts), [], ended_of_forall_ne hts, hts, rfl,
      TokenLine.ofTokens_of_forall_ne hts⟩
  · have hline := TokenLine.ofTokens_append_mark hbody hmark after
    unfold ended
    split
    · exact ⟨body, mark, _, by rw [List.append_assoc, List.cons_append], hbody, hmark, hline⟩
    · exact ⟨body, mark, after, rfl, hbody, hmark, hline⟩

theorem carries_ended {ts : List Token}
    (hinside : ∀ t ∈ (TokenLine.ofTokens ts).tokens, t.kind = .string → Text.hasInside t.text) :
    Carries (ended ts) (TokenLine.ofTokens ts) := by
  obtain ⟨body, mark, after, hended, hbody, hmark, hline⟩ := exists_ended_eq ts
  rw [hline] at hinside ⊢
  exact ⟨⟨mark, after, hended, hmark, rfl⟩, hbody, hinside⟩

/-- The tokens of the line are those in front of the first mark. -/
theorem Carries.findIdx_eq {tokens : Tokens} {l : TokenLine} (h : Carries tokens l) :
    tokens.findIdx (·.kind = .endMarker) = l.tokens.length := by
  obtain ⟨mark, after, rfl, hmark, -⟩ := h.split
  have hnone : l.tokens.findIdx (fun t => decide (t.kind = .endMarker)) = l.tokens.length :=
    List.findIdx_eq_length_of_false (by simpa using h.ne_mark)
  rw [List.findIdx_append, hnone, if_neg (Nat.lt_irrefl _), List.findIdx_cons]
  simp [hmark]

/-! ### Lines -/

section

variable {tokens : Tokens} {l : TokenLine}

/-- Where the line has ended, its tree is what the reading finishes with. -/
theorem Here.outcome_of_mark {p : Nat} {t : Token} {r : Reading} {e : Node}
    (h : Here tokens l p t) (hk : t.kind = .endMarker) (hr : r.finish = .ok e) :
    l.outcome r p = .ok e := by
  cases h with
  | token _ _ _ hne => exact absurd hk hne
  | mark _ hrest =>
    simp only [TokenLine.outcome, hrest, TokenLine.read, hr]
    rfl

/-- The first token tells whether a line holds nothing to analyse. -/
theorem Here.isIdle {t : Token} (h : Here tokens l 0 t) :
    (t.kind = .endMarker ∨ t.kind = .name ∧ TokenLine.statementWords.contains t.text) ↔
      l.isIdle := by
  cases h with
  | token _ _ hrest hne =>
    obtain ⟨rest, htokens⟩ : ∃ rest, l.tokens = t :: rest := ⟨_, hrest⟩
    simp [TokenLine.isIdle, htokens, hne]
  | mark _ hrest hk =>
    rw [List.drop_zero] at hrest
    simp [TokenLine.isIdle, hrest, hk]

variable (hl : Carries tokens l)

include hl

/-- An expression or an assignment: behind it the line can end, and only that. -/
theorem assignment_follows {p : Nat} (hp : p ≤ l.tokens.length) :
    Follows l tokens.assignment p .start fun e q r => r.finish = .ok e ∧
      ∀ t, Here tokens l q t → r.step t = .error (.expected [.endOfLine]) := by
  unfold Tokens.assignment
  refine ((descends hl hp).inside [] trivial trivial).bind ?_
  rintro target q r hq ⟨-, hends, rfl⟩
  obtain ⟨t, ht⟩ := hl.exists_here hq
  have hstep : (⟨[], .operator target⟩ : Reading).step t =
      Reading.afterExpression [] target t.kind := step_of_ends (ht.endsAt hends).ends
  refine .current_bind ht ?_
  cases hop : AssignOp.ofKind? t.kind with
  | none =>
    refine .pure ⟨rfl, fun u hu => ?_⟩
    obtain rfl := ht.unique hu
    simp only [hstep, Reading.afterExpression, hop]
  | some op =>
    by_cases htarget : target.isAssignable
    · simp only [Reading.afterExpression, hop, if_pos htarget] at hstep ⊢
      have hq' := ht.lt_of_step hstep
      refine .advance_bind hl ht hstep
        (((descends hl hq').inside [.assign op target] trivial trivial).bind ?_)
      rintro value q' r - ⟨-, hends', rfl⟩
      refine .pure ⟨rfl, fun u hu => ?_⟩
      rw [step_of_ends (hu.endsAt hends').ends]
      rfl
    · simp only [Reading.afterExpression, hop, if_neg htarget] at hstep ⊢
      refine .fail ht (fun hk => ?_) hstep
      rw [hk] at hop
      cases hop

/-- A line that holds something to analyse. -/
theorem line_follows (hidle : l.isIdle = false) :
    Follows l tokens.line 0 .start fun o q r => ∃ e, o = some e ∧ l.outcome r q = .ok e := by
  obtain ⟨t, ht⟩ := hl.exists_here (Nat.zero_le _)
  unfold Tokens.line
  refine .current_bind ht ?_
  rw [if_neg (mt ht.isIdle.mp (by rw [hidle]; decide))]
  refine (assignment_follows hl (Nat.zero_le _)).bind ?_
  rintro e q r hq ⟨hfinish, hstep⟩
  obtain ⟨u, hu⟩ := hl.exists_here hq
  refine .current_bind hu ?_
  by_cases hk : u.kind = .endMarker
  · rw [if_pos hk]
    exact .pure ⟨e, rfl, hu.outcome_of_mark hk hfinish⟩
  · rw [if_neg hk]
    exact .fail hu (fun hmark => absurd hmark hk) (hstep u hu)

/-- **A run ends with what `TokenLine.parse` finds**, and its trail is sound. -/
theorem exists_go_line : ∃ trail,
    go tokens.line ⟨0, [0], []⟩ = some (l.parse.mapError .refused, trail) ∧ trail.Sound l := by
  have hstart : Trail.Sound l ⟨0, [0], []⟩ :=
    ⟨Nat.zero_le _, rfl, by simp⟩
  obtain ⟨t, ht⟩ := hl.exists_here (Nat.zero_le _)
  cases hidle : l.isIdle with
  | true =>
    refine ⟨_, ?_, hstart⟩
    have hcurrent : go tokens.current ⟨0, [0], []⟩ = some (.ok t, ⟨0, [0], []⟩) :=
      go_current ht.get
    simp only [Tokens.line, go_bind, hcurrent, Option.bind_some, if_pos (ht.isIdle.mpr hidle),
      TokenLine.parse, hidle, if_true]
    rfl
  | false =>
    obtain ⟨x, trail, hgo, hsound, hx⟩ := line_follows hl hidle _ hstart rfl
    refine ⟨trail, ?_, hsound⟩
    rw [hgo, TokenLine.parse_of_not_idle hidle]
    cases x with
    | error halt =>
      cases halt with
      | crashed => exact hx.elim
      | refused e =>
        rw [EndsBeside] at hx
        rw [hx]
        rfl
    | ok o =>
      obtain ⟨r, houtcome, e, rfl, he⟩ := hx
      rw [houtcome, he]
      rfl

end

/-! ### Lists of tokens -/

section

variable {ts : List Token}

/-- The tokens of a line are tokens of its list. -/
theorem hasInside_of_inQuotes (h : ∀ t ∈ ts, t.kind = .string → Text.InQuotes t.text) :
    ∀ t ∈ (TokenLine.ofTokens ts).tokens, t.kind = .string → Text.hasInside t.text :=
  fun t ht hk => (h t ((List.takeWhile_prefix _).subset ht) hk).hasInside

/-- The result of a run, if the texts of the strings in the line have an inside. -/
theorem result_eq
    (hinside : ∀ t ∈ (TokenLine.ofTokens ts).tokens, t.kind = .string → Text.hasInside t.text) :
    result ts = some ((parseTokens ts).mapError .refused) := by
  obtain ⟨trail, hgo, -⟩ := exists_go_line (carries_ended hinside)
  simp only [result, run, hgo, Option.map_some, parseTokens]

/-- Two lists with the same line have the same result. -/
theorem result_congr {us : List Token} (h : TokenLine.ofTokens us = TokenLine.ofTokens ts)
    (hinside : ∀ t ∈ (TokenLine.ofTokens ts).tokens, t.kind = .string → Text.hasInside t.text) :
    result us = result ts ∧ parseTokens us = parseTokens ts := by
  have hparse : parseTokens us = parseTokens ts := by rw [parseTokens, parseTokens, h]
  refine ⟨?_, hparse⟩
  rw [result_eq hinside, result_eq (h ▸ hinside), hparse]

/-- **The descent reads every line as `parse` does.** -/
theorem result_of_tokenize {line : String} (h : tokenize line = .ok ts) :
    result ts = some ((parse line).mapError .refused) := by
  have hquoted : ∀ t ∈ ts, t.kind = .string → Text.InQuotes t.text := by
    intro t ht hk
    obtain ⟨quote, body, htext, hquote, -⟩ := exists_quoted_of_tokenize h ht hk
    rw [htext, ← List.cons_append]
    simp only [Text.InQuotes, String.toList_ofList, List.getLast?_concat]
    exact ⟨⟨quote, rfl, hquote⟩, quote, rfl, hquote⟩
  rw [result_eq (hasInside_of_inQuotes hquoted), parse, h]

end

end Descent

/-! ### The first mark -/

/-- A mark where the last token stops changes nothing in the line of a list. -/
theorem TokenLine.ofTokens_append_of_start_eq {ts : List Token} {m : Token}
    (hm : m.kind = .endMarker) (hstart : m.span.start = Descent.lastStop ts) :
    ofTokens (ts ++ [m]) = ofTokens ts := by
  rcases exists_first_mark ts with hts | ⟨body, mark, after, rfl, hbody, hmark⟩
  · rw [ofTokens_append_mark hts hm, ofTokens_of_forall_ne hts, hstart]
  · rw [List.append_assoc, List.cons_append, ofTokens_append_mark hbody hmark,
      ofTokens_append_mark hbody hmark]

/-- **A descent ends, and stops at the first mark of an end.** The texts of the strings are in
quotes. Then the run has a result, the one of `parseTokens`. Its position goes from each token to
the next one, is always one of the list and never behind the first mark, and each call that returns
and each round of a loop has moved it. What stands behind the first mark is nothing to the result,
and neither is a mark put where the last token stops. -/
theorem descent_stays_before_first_mark {ts : List Token}
    (hquoted : ∀ t ∈ ts, t.kind = .string → Text.InQuotes t.text) :
    (∃ trail, Descent.run ts = some ((parseTokens ts).mapError .refused, trail) ∧
      trail.visited = (List.range (trail.position + 1)).reverse ∧
      (∀ p ∈ trail.visited, p < (Descent.ended ts).length ∧
        p ≤ (Descent.ended ts).findIdx (·.kind = .endMarker)) ∧
      ∀ s ∈ trail.strides, s.start < s.stop ∧
        s.stop ≤ (Descent.ended ts).findIdx (·.kind = .endMarker)) ∧
    ((∀ t ∈ ts, t.kind ≠ .endMarker) → ∀ (m : Token) (rest : List Token), m.kind = .endMarker →
      Descent.result (ts ++ [m] ++ rest) = Descent.result (ts ++ [m]) ∧
        parseTokens (ts ++ [m] ++ rest) = parseTokens (ts ++ [m])) ∧
    ∀ m : Token, m.kind = .endMarker → m.span = ⟨Descent.lastStop ts, Descent.lastStop ts⟩ →
      Descent.result (ts ++ [m]) = Descent.result ts ∧
        parseTokens (ts ++ [m]) = parseTokens ts := by
  have hinside := Descent.hasInside_of_inQuotes hquoted
  refine ⟨?_, fun hts m rest hm => ?_, fun m hm hspan => ?_⟩
  · have hcarries := Descent.carries_ended hinside
    obtain ⟨trail, hgo, hsound⟩ := Descent.exists_go_line hcarries
    rw [hcarries.findIdx_eq]
    refine ⟨trail, hgo, hsound.visited_eq, fun p hp => ?_, hsound.forward⟩
    have hle := hsound.visited_le p hp
    exact ⟨Nat.lt_of_le_of_lt hle hcarries.length_lt, hle⟩
  · have hmark := TokenLine.ofTokens_append_mark hts hm
    rw [TokenLine.ofTokens_of_forall_ne hts] at hinside
    refine Descent.result_congr ?_ (by rw [hmark]; exact hinside)
    rw [List.append_assoc, List.singleton_append, hmark, hmark]
  · have hstart : m.span.start = Descent.lastStop ts := by rw [hspan]
    exact Descent.result_congr (TokenLine.ofTokens_append_of_start_eq hm hstart) hinside

/-- A call that nothing closes is refused at the mark, its own or the one that is put there, and the
parenthesis behind the mark is not looked at. -/
theorem result_call_not_closed :
    Descent.result [⟨.name, "f", ⟨0, 1⟩⟩, ⟨.leftParen, "(", ⟨1, 2⟩⟩, ⟨.string, "'a'", ⟨2, 5⟩⟩] =
        some (.error (.refused (.unexpected 5 [.token .comma, .token .rightParen] none))) ∧
      Descent.result [⟨.name, "f", ⟨0, 1⟩⟩, ⟨.leftParen, "(", ⟨1, 2⟩⟩, ⟨.string, "'a'", ⟨2, 5⟩⟩,
          Token.ending 5, ⟨.rightParen, ")", ⟨6, 7⟩⟩, Token.ending 7] =
        some (.error (.refused (.unexpected 5 [.token .comma, .token .rightParen] none))) := by
  have hquoted : ∀ t ∈ ([⟨.name, "f", ⟨0, 1⟩⟩, ⟨.leftParen, "(", ⟨1, 2⟩⟩,
      ⟨.string, "'a'", ⟨2, 5⟩⟩] : List Token), t.kind = .string → Text.InQuotes t.text := by
    simp [Text.InQuotes]
  obtain ⟨⟨trail, hrun, -⟩, hrest, hmark⟩ := descent_stays_before_first_mark hquoted
  have hresult := congrArg (Option.map Prod.fst) hrun
  refine ⟨hresult, ?_⟩
  exact ((hrest (by decide) (Token.ending 5) _ rfl).1.trans
    (hmark (Token.ending 5) rfl rfl).1).trans hresult

end ShapeFault
