import ShapeFault.Proofs.Lexing.Gap
import ShapeFault.Proofs.Lexing.Longest

/-!
# The tokens of a line tile it

The tokens of a line and the gaps between them make up the line, in order and without overlap.
`Tiles` says so by recursion on the tokens, with the text in front of them as a parameter, and
`Cursor.tiles_of_tokens` shows it of the tokens that are read. The main result is
`tokenize_tiles`: each token is a piece of the line, it has the form of its kind, nothing longer
starts where it does, and the mark of the end stands behind all of them.
-/

namespace ShapeFault

open Token (Kind)

/-! ### Sizes in bytes -/

namespace Cursor

theorem byteLength_eq (cs : List Char) : byteLength cs = (String.ofList cs).utf8ByteSize := by
  induction cs with
  | nil => rfl
  | cons c cs ih =>
    rw [byteLength, ih, ← List.singleton_append, String.ofList_append, String.utf8ByteSize_append,
      ← String.singleton_eq_ofList, String.utf8ByteSize_singleton]

end Cursor

/-! ### Tiles -/

/-- The token `t` lies in the line `pre ++ gap ++ t.text ++ post`, right behind the gap. -/
structure Token.Placed (pre gap post : String) (t : Token) : Prop where
  start : t.span.start = (pre ++ gap).utf8ByteSize
  stop : t.span.stop = (pre ++ gap ++ t.text).utf8ByteSize
  /-- the gap consists of blanks and comments -/
  gap : Lexeme.Gap gap.toList (t.text ++ post).toList
  /-- the kind is that of the text by itself -/
  form : t.kind ≠ .endMarker → ∀ k : Kind, k.Form t.text.toList ↔ k = t.kind
  /-- no longer token starts there -/
  maximal : t.kind ≠ .endMarker → t.kind.Maximal t.text.toList post.toList

namespace Token.Placed

variable {pre gap rest : String} {t : Token}

theorem ending (hgap : Lexeme.Gap gap.toList []) :
    (Token.ending (pre ++ gap).utf8ByteSize).Placed pre gap "" where
  start := rfl
  stop := by rw [Token.ending, String.append_empty]
  gap := by simpa [Token.ending] using hgap
  form hne := absurd rfl hne
  maximal hne := absurd rfl hne

theorem of_stands (hgap : Lexeme.Gap gap.toList (t.text ++ rest).toList)
    (hstands : Stands t.kind t.text.toList rest.toList)
    (hspan : t.span = ⟨(pre ++ gap).utf8ByteSize, (pre ++ gap ++ t.text).utf8ByteSize⟩) :
    t.Placed pre gap rest where
  start := by rw [hspan]
  stop := by rw [hspan]
  gap := hgap
  form _ _ := Kind.form_iff_eq_of_stands hstands
  maximal _ := hstands.maximal

end Token.Placed

/-- `Tiles pre text ts` says that `text` consists of the tokens `ts` and gaps between them, where
the text `pre` comes first on the line. -/
inductive Tiles : String → String → List Token → Prop where
  | ending {pre gap : String} (hgap : Lexeme.Gap gap.toList []) :
      Tiles pre gap [Token.ending (pre ++ gap).utf8ByteSize]
  | token {pre gap rest : String} {t : Token} {ts : List Token}
      (hgap : Lexeme.Gap gap.toList (t.text ++ rest).toList)
      (hstands : Stands t.kind t.text.toList rest.toList)
      (hspan : t.span = ⟨(pre ++ gap).utf8ByteSize, (pre ++ gap ++ t.text).utf8ByteSize⟩)
      (hrest : Tiles (pre ++ gap ++ t.text) rest ts) :
      Tiles pre (gap ++ t.text ++ rest) (t :: ts)

/-- What is passed over in front of the next token is a gap. -/
theorem Cursor.exists_gap (s : Cursor) {pre : String} (hpre : s.offset = pre.utf8ByteSize) :
    ∃ gap : String, Lexeme.Gap gap.toList (Lexeme.skip s.rest) ∧
      String.ofList s.rest = gap ++ String.ofList (Lexeme.skip s.rest) ∧
      s.skipTrivia.offset = (pre ++ gap).utf8ByteSize := by
  refine ⟨String.ofList (s.rest.take (Lexeme.triviaLength false s.rest)), ?_, ?_, ?_⟩
  · rw [String.toList_ofList]
    exact Lexeme.gap_trivia s.rest
  · rw [← String.ofList_append, Lexeme.skip, List.take_append_drop]
  · rw [String.utf8ByteSize_append, ← byteLength_eq, ← hpre]
    rfl

/-- The token at a place, and what is left of the text behind it. -/
theorem Cursor.text_token (s : Cursor) (k : Kind) (n : Nat) :
    String.ofList s.rest = (s.token k n).text ++ String.ofList (s.advance n).rest := by
  rw [token, advance, ← String.ofList_append, List.take_append_drop]

/-- The tokens that are read tile what is left of the line. -/
theorem Cursor.tiles_of_tokens {s : Cursor} {ts : List Token} {pre : String}
    (h : s.tokens = .ok ts) (hpre : s.offset = pre.utf8ByteSize) :
    Tiles pre (String.ofList s.rest) ts := by
  -- each token shortens the rest, hence the induction on its length
  induction hn : s.rest.length using Nat.strongRecOn generalizing s ts pre with
  | ind n ih =>
    subst hn
    obtain ⟨gap, hgap, hsplit, hstart⟩ := s.exists_gap hpre
    rcases tokens_cases h with
      ⟨hskip, rfl⟩ | ⟨c, rest, k, n, ts, hskip, hfront, hlt, hts, rfl⟩
    · rw [hskip] at hgap hsplit
      rw [hstart, hsplit, String.ofList_nil, String.append_empty]
      exact .ending hgap
    · have hrest : Lexeme.skip s.rest = s.skipTrivia.rest := rfl
      have htext := s.skipTrivia.text_token k n
      have hstop : (s.skipTrivia.advance n).offset =
          (pre ++ gap ++ (s.skipTrivia.token k n).text).utf8ByteSize := by
        rw [String.utf8ByteSize_append, ← hstart, token, ← byteLength_eq]
        rfl
      rw [hsplit, hrest, htext, ← String.append_assoc]
      refine .token ?_ ?_ ?_ (ih _ hlt hts hstop rfl)
      · rwa [← htext, String.toList_ofList]
      · have hstands := (Front.of_eq_token_iff.mp hfront).stands
        rw [← hskip, hrest] at hstands
        simpa only [token, advance, String.toList_ofList] using hstands
      · rw [← hstart, ← hstop]
        rfl

namespace Tiles

variable {pre text : String} {ts : List Token}

/-- The mark of the end comes last and only there. -/
theorem exists_body (h : Tiles pre text ts) :
    ∃ body, ts = body ++ [Token.ending (pre ++ text).utf8ByteSize] ∧
      ∀ t ∈ body, t.kind ≠ .endMarker ∧ t.text ≠ "" := by
  induction h with
  | ending hgap => exact ⟨[], rfl, nofun⟩
  | @token pre gap rest t ts hgap hstands hspan _ ih =>
    obtain ⟨body, rfl, hbody⟩ := ih
    refine ⟨t :: body, ?_, List.forall_mem_cons.mpr ⟨⟨?_, ?_⟩, hbody⟩⟩
    · simp only [String.append_assoc, List.cons_append]
    · exact hstands.kind_ne_endMarker
    · obtain ⟨c, cs, hw, -⟩ := hstands
      intro hempty
      rw [hempty] at hw
      cases hw

/-- No token starts in the text in front of the tiles. -/
theorem size_le_start (h : Tiles pre text ts) : ∀ t ∈ ts, pre.utf8ByteSize ≤ t.span.start := by
  induction h with
  | ending hgap => simp [Token.ending, String.utf8ByteSize_append]
  | @token pre gap rest t ts hgap hstands hspan _ ih =>
    refine List.forall_mem_cons.mpr ⟨?_, fun u hu => ?_⟩
    · rw [hspan, String.utf8ByteSize_append]
      exact Nat.le_add_right _ _
    · have hle := ih u hu
      rw [String.append_assoc, String.utf8ByteSize_append] at hle
      omega

/-- Each token ends before the next one starts. -/
theorem pairwise (h : Tiles pre text ts) :
    ts.Pairwise fun t u => t.span.stop ≤ u.span.start := by
  induction h with
  | ending hgap => exact List.pairwise_singleton _ _
  | @token pre gap rest t ts hgap hstands hspan hrest ih =>
    refine List.pairwise_cons.mpr ⟨fun u hu => ?_, ih⟩
    rw [hspan]
    exact hrest.size_le_start u hu

/-- No two tokens start at one place. -/
theorem pairwise_start (h : Tiles pre text ts) :
    ts.Pairwise fun t u => t.span.start < u.span.start := by
  induction h with
  | ending hgap => exact List.pairwise_singleton _ _
  | @token pre gap rest t ts hgap hstands hspan hrest ih =>
    refine List.pairwise_cons.mpr ⟨fun u hu => ?_, ih⟩
    obtain ⟨c, cs, hw, -⟩ := hstands
    have hsize : t.text.utf8ByteSize = c.utf8Size + Cursor.byteLength cs := by
      rw [← String.ofList_toList (s := t.text), hw, ← Cursor.byteLength_eq, Cursor.byteLength]
    have hpos := c.utf8Size_pos
    have hle := hrest.size_le_start u hu
    rw [String.utf8ByteSize_append] at hle
    have hlt : (pre ++ gap).utf8ByteSize < u.span.start := by omega
    rwa [hspan]

/-- Each token is placed right behind the gap that follows the token before it. -/
theorem exists_placed (h : Tiles pre text ts) {before after : List Token} {t : Token}
    (hts : ts = before ++ t :: after) :
    ∃ pre' gap post, pre ++ text = pre' ++ gap ++ t.text ++ post ∧
      pre'.utf8ByteSize = (before.getLast?.map (·.span.stop)).getD pre.utf8ByteSize ∧
      t.Placed pre' gap post := by
  induction h generalizing before with
  | @ending pre gap hgap =>
    cases before with
    | nil =>
      obtain ⟨rfl, rfl⟩ := List.cons.inj hts
      exact ⟨pre, gap, "", by simp [Token.ending], rfl, .ending hgap⟩
    | cons v before => simp at hts
  | @token pre gap rest u us hgap hstands hspan hrest ih =>
    cases before with
    | nil =>
      obtain ⟨rfl, rfl⟩ := List.cons.inj hts
      exact ⟨pre, gap, rest, by simp only [String.append_assoc], rfl,
        .of_stands hgap hstands hspan⟩
    | cons v before =>
      obtain ⟨rfl, rfl⟩ := List.cons.inj hts
      obtain ⟨pre', gap', post, heq, hsize, hplaced⟩ := ih rfl
      refine ⟨pre', gap', post, by simpa only [String.append_assoc] using heq, ?_, hplaced⟩
      rw [hsize, List.getLast?_cons]
      cases before.getLast? with
      | none => simp [hspan]
      | some w => rfl

end Tiles

theorem tiles_of_tokenize {line : String} {ts : List Token} (h : tokenize line = .ok ts) :
    Tiles "" line ts := by
  have hstart : (Cursor.start line).offset = "".utf8ByteSize := rfl
  have htiles := Cursor.tiles_of_tokens h hstart
  rwa [Cursor.start, String.ofList_toList] at htiles

/-- Each token of a line but the mark of its end is one by itself. -/
theorem stands_of_tokenize {line : String} {ts : List Token} (h : tokenize line = .ok ts)
    {t : Token} (ht : t ∈ ts) (hk : t.kind ≠ .endMarker) : Stands t.kind t.text.toList [] := by
  obtain ⟨before, after, hts⟩ := List.mem_iff_append.mp ht
  obtain ⟨pre, gap, post, -, -, hplaced⟩ := (tiles_of_tokenize h).exists_placed hts
  exact Kind.form_iff_stands.mp ((hplaced.form hk t.kind).mpr rfl)

/-- **The tokens of a line tile it.** The mark of the end comes last and only there, with no text
and behind the whole line. All other tokens have texts, and none of them overlaps with the next one.
Each token is a piece of the line, with nothing but blanks and comments between it and the end of
the token before it, or the start of the line. Its kind is the one that its text has by itself, and
no longer token starts where it does. -/
theorem tokenize_tiles {line : String} {ts : List Token} (h : tokenize line = .ok ts) :
    (∃ body, ts = body ++ [Token.ending line.utf8ByteSize] ∧
      ∀ t ∈ body, t.kind ≠ .endMarker ∧ t.text ≠ "") ∧
    (ts.Pairwise fun t u => t.span.stop ≤ u.span.start) ∧
    ∀ before t after, ts = before ++ t :: after → ∃ pre gap post,
      line = pre ++ gap ++ t.text ++ post ∧
      pre.utf8ByteSize = (before.getLast?.map (·.span.stop)).getD 0 ∧ t.Placed pre gap post := by
  have htiles := tiles_of_tokenize h
  refine ⟨?_, htiles.pairwise, fun before t after hts => ?_⟩
  · simpa only [String.empty_append] using htiles.exists_body
  · simpa only [String.empty_append, String.utf8ByteSize_empty] using htiles.exists_placed hts

/-- In `é = 1..` the number ends in front of both points, and the letter counts for two bytes. -/
theorem tokenize_number_before_points :
    ∃ ts body after, tokenize "é = 1.. # x" = .ok ts ∧ ts = body ++ [Token.ending 12] ∧
      (∀ t ∈ body, t.kind ≠ .endMarker ∧ t.text ≠ "") ∧
      ts = ⟨.name, "é", ⟨0, 2⟩⟩ :: ⟨.equal, "=", ⟨3, 4⟩⟩ :: ⟨.number, "1", ⟨5, 6⟩⟩ :: after ∧
      ∃ pre gap post, "é = 1.. # x" = pre ++ gap ++ "1" ++ post ∧ pre.utf8ByteSize = 4 ∧
        Token.Placed pre gap post ⟨.number, "1", ⟨5, 6⟩⟩ := by
  have hname : (Cursor.start "é = 1.. # x").next =
      (.ok ⟨.name, "é", ⟨0, 2⟩⟩, ⟨2, " = 1.. # x".toList⟩) := rfl
  have hequal : (Cursor.mk 2 " = 1.. # x".toList).next =
      (.ok ⟨.equal, "=", ⟨3, 4⟩⟩, ⟨4, " 1.. # x".toList⟩) := rfl
  have hnumber : (Cursor.mk 4 " 1.. # x".toList).next =
      (.ok ⟨.number, "1", ⟨5, 6⟩⟩, ⟨6, ".. # x".toList⟩) := rfl
  have hpoint : (Cursor.mk 6 ".. # x".toList).next =
      (.ok ⟨.dot, ".", ⟨6, 7⟩⟩, ⟨7, ". # x".toList⟩) := rfl
  have hpoint' : (Cursor.mk 7 ". # x".toList).next =
      (.ok ⟨.dot, ".", ⟨7, 8⟩⟩, ⟨8, " # x".toList⟩) := rfl
  have hend : (Cursor.mk 8 " # x".toList).next = (.ok (Token.ending 12), ⟨12, []⟩) := rfl
  have htokens : tokenize "é = 1.. # x" = .ok [⟨.name, "é", ⟨0, 2⟩⟩, ⟨.equal, "=", ⟨3, 4⟩⟩,
      ⟨.number, "1", ⟨5, 6⟩⟩, ⟨.dot, ".", ⟨6, 7⟩⟩, ⟨.dot, ".", ⟨7, 8⟩⟩, Token.ending 12] := by
    rw [tokenize, Cursor.tokens_of_next_ok hname, Cursor.tokens_of_next_ok hequal,
      Cursor.tokens_of_next_ok hnumber, Cursor.tokens_of_next_ok hpoint,
      Cursor.tokens_of_next_ok hpoint', Cursor.tokens_of_next_ok hend]
    rfl
  obtain ⟨⟨body, hbody, htexts⟩, -, hplaced⟩ := tokenize_tiles htokens
  exact ⟨_, body, _, htokens, hbody, htexts, rfl,
    hplaced [⟨.name, "é", ⟨0, 2⟩⟩, ⟨.equal, "=", ⟨3, 4⟩⟩] _ _ rfl⟩

end ShapeFault
