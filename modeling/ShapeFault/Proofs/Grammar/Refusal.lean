import ShapeFault.Proofs.Grammar.Viable
import ShapeFault.Proofs.Lexing.Tiling

/-!
# Where a line is refused

A line that is not read to its end is refused at its first token that cannot be right: the tokens in
front of it are the beginning of a line with a tree, and with it they are not. The alternatives that
are named with the refusal do fit: each of them, put in place of the token, makes a beginning again
(`Reads.holds_of_step`, `Reads.holds_of_finish`). The main result is
`parse_unexpected_at_first_wrong_token`.
-/

namespace ShapeFault

open Token (Kind)

/-- The line can go on with this, or end. An alternative that names no kind of token says nothing
more. -/
def Expected.Holds (r : Reading) : Expected → Prop
  | token k => k ≠ .endMarker ∧ ∃ s, r.step k.sample = .ok s
  | endOfLine => ∃ e, r.finish = .ok e
  | noBraces | assignable => True

/-- What closes the innermost of the open constructs, or the line if none is open. -/
def closers : List Construct → List Expected
  | [] => [.endOfLine]
  | c :: _ => c.closers

/-! ### What is named with a refusal -/

namespace Reading

variable {cs : List Construct} {e : Node} {k : Kind} {as : List Expected}

theorem afterItem_error {a : Node} {is : List IndexItem} {i : IndexItem}
    (h : afterItem a is cs i k = .error (.expected as)) :
    as = Construct.closers (.index a is .first) := by
  unfold afterItem at h
  split at h <;> cases h
  rfl

theorem afterPart_error {a : Node} {is : List IndexItem} {part : ItemPart} {i : IndexItem}
    {o : Option Node} (hi : part.complete o = some i)
    (h : afterPart a is part cs o k = .error (.expected as)) :
    as = Construct.closers (.index a is part) := by
  unfold afterPart at h
  split at h
  · cases h
  · exact afterItem_error h
  · rename_i heq _
    rw [hi] at heq
    cases heq

/-- Where an operand is due, operands are named, unless two colons have been read in an index. -/
theorem stepOperand_error {t : Token} (h : stepOperand cs t = .error (.expected as)) :
    as = [.noBraces] ∨ as = Expected.operand ∨
      ∃ a is b c cs', cs = .index a is (.step b c) :: cs' ∧
        as = [.token .comma, .token .rightBracket] := by
  unfold stepOperand at h
  split at h
  case h_2 => split at h <;> cases h
  case h_11 =>
    unfold withoutOperand at h
    split at h
    case h_5 a is b cs _ => cases h
    case h_8 a is b c cs _ => exact Or.inr (Or.inr ⟨a, is, b, c, cs, rfl, by cases h; rfl⟩)
    case h_11 => cases h; exact Or.inl rfl
    case h_12 => cases h; exact Or.inr (Or.inl rfl)
    case h_6 a is b cs _ | h_7 a is b cs _ => cases b <;> cases h
    all_goals cases h
  all_goals cases h

/-- Behind an expression, the closers of the innermost construct are named. -/
theorem afterExpression_error (h : afterExpression cs e k = .error (.expected as)) :
    as = [.assignable] ∨ as = closers cs := by
  unfold afterExpression at h
  split at h
  case h_6 _ _ _ part _ =>
    obtain ⟨i, hi⟩ := part.exists_complete e
    exact Or.inr (afterPart_error hi h)
  case h_7 =>
    split at h
    · split at h <;> cases h
      exact Or.inl rfl
    · cases h
      exact Or.inr rfl
  case h_8 => cases h; exact Or.inr rfl
  all_goals cases h

end Reading

/-! ### What is named fits -/

namespace Expected

variable {us vs : List Token} {cs : List Construct} {e : Node}

/-- Every start of an operand fits where an operand is due. -/
theorem holds_operand (cs : List Construct) :
    ∀ x ∈ operand, x.Holds ⟨cs, .operand⟩ := by
  simp only [operand, List.forall_mem_cons, Holds]
  refine ⟨⟨nofun, _, rfl⟩, ⟨nofun, _, rfl⟩, ⟨nofun, _, rfl⟩, ⟨nofun, _, rfl⟩, ⟨nofun, _, rfl⟩, ?_⟩
  exact fun _ hx => nomatch hx

/-- Behind an expression, what closes the innermost construct fits that is no operator. -/
theorem holds_closers (hcs : Opened us cs) (he : Derives vs (.expression .suffixed e)) :
    ∀ x ∈ closers (closeTighter 0 cs e).1, x.Holds ⟨cs, .operator e⟩ := by
  have hclosed := hcs.closed (Nat.zero_le 7) he (fits_of_seven_le (by decide) cs) (Nat.zero_le _)
  obtain ⟨us', vs', l, -, hcs', -, -, -⟩ := hclosed.split
  have hsettled := hclosed.settled
  obtain ⟨⟨cs', e'⟩, heq⟩ : ∃ p, closeTighter 0 cs e = p := ⟨_, rfl⟩
  rw [heq] at hcs' hsettled ⊢
  have hstep : ∀ {k : Kind} {s : Reading}, Ends k → Reading.afterExpression cs' e' k = .ok s →
      k ≠ .endMarker → (Expected.token k).Holds ⟨cs, .operator e⟩ := by
    intro k s hends hk hne
    refine ⟨hne, s, ?_⟩
    rw [step_of_ends hends, heq]
    exact hk
  -- the innermost construct tells what closes it
  cases hcs' with
  | nil => exact List.forall_mem_singleton.mpr ⟨e', by simp only [Reading.finish, heq]⟩
  | @assign _ _ op a =>
    exact List.forall_mem_singleton.mpr ⟨.assign op a e', by simp only [Reading.finish, heq]⟩
  | unary => exact hsettled.elim
  | binary => exact absurd hsettled (Nat.not_lt_zero _)
  | paren => exact List.forall_mem_singleton.mpr (hstep (by decide) rfl (by decide))
  | call | list =>
    exact List.forall_mem_cons.mpr ⟨hstep (by decide) rfl (by decide),
      List.forall_mem_singleton.mpr (hstep (by decide) rfl (by decide))⟩
  | @index _ _ _ _ _ _ a is part =>
    obtain ⟨i, hi⟩ := part.exists_complete e'
    exact List.forall_mem_cons.mpr
      ⟨hstep (by decide) (Reading.afterPart_eq_afterItem hi (by decide)) (by decide),
        List.forall_mem_singleton.mpr
          (hstep (by decide) (Reading.afterPart_eq_afterItem hi (by decide)) (by decide))⟩

/-- A comma and a bracket fit behind a complete item of an index. -/
theorem holds_separator (a : Node) (is : List IndexItem) (part : ItemPart) (i : IndexItem)
    (cs : List Construct) : ∀ x ∈ [token .comma, token .rightBracket],
      x.Holds ⟨.index a is part :: cs, .separator i⟩ :=
  List.forall_mem_cons.mpr ⟨⟨by decide, _, rfl⟩, List.forall_mem_singleton.mpr ⟨by decide, _, rfl⟩⟩

end Expected

namespace Reads

variable {xs : List Token} {r : Reading} {t : Token} {as : List Expected}

/-- **The alternatives to a token** that is refused fit in its place. -/
theorem holds_of_step (h : Reads xs r) (hstep : r.step t = .error (.expected as)) :
    ∀ x ∈ as, x.Holds r := by
  cases h with
  | @operand _ cs =>
    rcases Reading.stepOperand_error hstep with rfl | rfl | ⟨a, is, b, c, cs, rfl, rfl⟩
    · exact List.forall_mem_singleton.mpr trivial
    · exact Expected.holds_operand cs
    · exact List.forall_mem_cons.mpr
        ⟨⟨by decide, _, rfl⟩, List.forall_mem_singleton.mpr ⟨by decide, _, rfl⟩⟩
  | @operator us vs cs e hcs he =>
    simp only [Reading.step, Reading.stepOperator] at hstep
    split at hstep
    case h_4 =>
      split at hstep
      · cases hstep
      · rcases Reading.afterExpression_error hstep with rfl | rfl
        · exact List.forall_mem_singleton.mpr trivial
        · exact Expected.holds_closers hcs he
    all_goals cases hstep
  | member =>
    simp only [Reading.step] at hstep
    split at hstep <;> cases hstep
    exact List.forall_mem_singleton.mpr ⟨by decide, _, rfl⟩
  | @separator us vs cs a is i =>
    obtain rfl := Reading.afterItem_error hstep
    exact Expected.holds_separator a is .first i cs

/-- **The alternatives to the end of a line** fit there. -/
theorem holds_of_finish (h : Reads xs r) (hfinish : r.finish = .error (.expected as)) :
    ∀ x ∈ as, x.Holds r := by
  cases h with
  | @operand _ cs =>
    cases hfinish
    exact Expected.holds_operand cs
  | @operator us vs cs e hcs he =>
    have heq : as = closers (closeTighter 0 cs e).1 := by
      simp only [Reading.finish] at hfinish
      split at hfinish
      · cases hfinish
      · cases hfinish
      · rename_i hc
        rw [hc]
        cases hfinish
        rfl
    rw [heq]
    exact Expected.holds_closers hcs he
  | member =>
    cases hfinish
    exact List.forall_mem_singleton.mpr ⟨by decide, _, rfl⟩
  | @separator us vs cs a is i =>
    cases hfinish
    exact Expected.holds_separator a is .first i cs

end Reads

/-! ### The first token that is wrong -/

/-- The tokens that are left are refused, at the first of them or at the end of the line. -/
def Reading.Refuses (r : Reading) : List Token → Refusal → Prop
  | [], e => r.finish = .error e
  | t :: _, e => r.step t = .error e

theorem Reading.exists_expected_of_finish {r : Reading} {e : Refusal} (h : r.finish = .error e) :
    ∃ as, e = .expected as := by
  unfold finish at h
  split at h
  · exact ⟨_, (Except.error.inj h).symm⟩
  · split at h <;> cases h
    exact ⟨_, rfl⟩
  · exact ⟨_, (Except.error.inj h).symm⟩
  · exact ⟨_, (Except.error.inj h).symm⟩

namespace TokenLine

variable {r : Reading} {ts left : List Token} {e : Refusal}

theorem read_of_refuses (h : r.Refuses left e) : read r left = .error (left, e) := by
  cases left with
  | nil =>
    rw [Reading.Refuses] at h
    rw [read, h]
    rfl
  | cons t ts =>
    rw [Reading.Refuses] at h
    rw [read, h]

/-- Where reading stops, and what stops it. -/
theorem exists_reaches_of_read (h : read r ts = .error (left, e)) :
    ∃ before s, ts = before ++ left ∧ Reaches r before s ∧ s.Refuses left e := by
  induction ts generalizing r with
  | nil =>
    simp only [read] at h
    cases hfinish : r.finish with
    | ok => rw [hfinish] at h; cases h
    | error e' =>
      rw [hfinish] at h
      cases h
      exact ⟨[], r, rfl, .refl r, hfinish⟩
  | cons t ts ih =>
    simp only [read] at h
    split at h
    · rename_i s hs
      obtain ⟨before, u, rfl, hreach, hleft⟩ := ih h
      exact ⟨t :: before, u, rfl, .head hs hreach, hleft⟩
    · rename_i e' he'
      cases h
      exact ⟨[], r, rfl, .refl r, he'⟩

/-- A line with a syntax error, taken apart where it is refused. -/
theorem exists_refuses {l : TokenLine} {position : Nat} {as : List Expected}
    {found : Option String} (h : l.parse = .error (.unexpected position as found)) :
    l.isIdle = false ∧ ∃ before left r, l.tokens = before ++ left ∧ Reaches .start before r ∧
      r.Refuses left (.expected as) ∧ position = (left.head?.map (·.span.start)).getD l.stop ∧
      found = left.head?.map Token.text := by
  unfold parse at h
  split at h
  · cases h
  · rename_i hidle
    split at h
    · cases h
    · rename_i left refusal hread
      obtain ⟨before, r, htokens, hreach, hleft⟩ := exists_reaches_of_read hread
      refine ⟨Bool.eq_false_iff.mpr hidle, before, left, r, htokens, hreach, ?_⟩
      cases left with
      | nil =>
        obtain ⟨as, rfl⟩ := Reading.exists_expected_of_finish hleft
        cases h
        exact ⟨hleft, rfl, rfl⟩
      | cons t after =>
        cases refusal with
        | badNumber => cases h
        | expected as =>
          cases h
          exact ⟨hleft, rfl, rfl⟩

theorem stop_ofTokens {body : List Token} (stop : Nat) (h : ∀ t ∈ body, t.kind ≠ .endMarker) :
    (ofTokens (body ++ [Token.ending stop])).stop = stop := by
  have hnone : body.find? (fun t => decide (t.kind = .endMarker)) = none := by simpa using h
  simp [ofTokens, List.find?_append, hnone, Token.ending]

end TokenLine

/-- A line with a syntax error, taken apart at the token where it is refused. -/
theorem exists_refuses {line : String} {position : Nat} {expected : List Expected}
    {found : Option String} (h : parse line = .error (.unexpected position expected found)) :
    ∃ before t after r, tokenize line = .ok (before ++ t :: after) ∧ t.span.start = position ∧
      found = (if t.kind = .endMarker then none else some t.text) ∧ Live before ∧
      Reaches .start before r ∧
      ∀ ys, r.Refuses (TokenLine.ofTokens (t :: ys)).tokens (.expected expected) := by
  unfold parse at h
  split at h
  case h_2 => cases h
  case h_1 ts hts =>
    obtain ⟨body, stop, rfl, hbody, -⟩ := lexes_of_tokenize hts
    obtain ⟨hidle, before, left, r, hsplit, hreach, hleft, rfl, rfl⟩ := TokenLine.exists_refuses h
    have htokens := TokenLine.tokens_ofTokens stop hbody
    have hlive : Live body := htokens ▸ .of_isIdle (htokens.symm ▸ hbody) hidle
    obtain rfl := htokens.symm.trans hsplit
    cases left with
    | nil =>
      have hstop := TokenLine.stop_ofTokens stop hbody
      rw [List.append_nil] at hts
      exact ⟨before, _, [], r, hts, hstop.symm, rfl, hlive.of_append, hreach, fun _ => hleft⟩
    | cons t after =>
      have ht : t.kind ≠ .endMarker := hbody t (by simp)
      refine ⟨before, t, after ++ [Token.ending stop], r, by simpa using hts, rfl,
        (if_neg ht).symm, hlive.of_append, hreach, fun ys => ?_⟩
      have hsingle : ∀ u ∈ [t], u.kind ≠ .endMarker := by simpa using ht
      have hgoes := TokenLine.tokens_ofTokens_append hsingle ys
      rw [List.singleton_append] at hgoes
      rw [hgoes]
      exact hleft

section

variable {before left : List Token} {r : Reading} {as : List Expected}

/-- The alternatives to what is refused fit in its place. -/
theorem Reading.Refuses.holds (h : r.Refuses left (.expected as)) (hreads : Reads before r) :
    ∀ x ∈ as, x.Holds r := by
  cases left with
  | nil => exact hreads.holds_of_finish h
  | cons t after => exact hreads.holds_of_step h

/-- A line has no tree if its tokens are refused somewhere. -/
theorem Reading.Refuses.parseTokens_ne {ts : List Token} {e : Refusal}
    (h : r.Refuses (TokenLine.ofTokens ts).tokens e) (hreach : Reaches .start before r)
    (hlive : Live before) (v : Node) : parseTokens (before ++ ts) ≠ .ok (some v) := by
  intro hparse
  have hread := read_start_eq_ok_iff.mpr (TokenLine.parse_eq_ok_some_iff.mp hparse).2
  rw [TokenLine.tokens_ofTokens_append hlive.goesOn, hreach.read_append,
    TokenLine.read_of_refuses h] at hread
  cases hread

end

/-- **A syntax error points at the first token that cannot be right.** One token of the line, and no
other one, starts at the position of the error. The tokens in front of it are the beginning of a
line with a tree. No line with a tree goes on with it, and if it is the mark of the end, the tokens
in front of it have no tree as they stand. Of every kind that is expected there is a token that
makes a beginning again in its place, and where the end of the line is expected the tokens in front
of it have a tree. -/
theorem parse_unexpected_at_first_wrong_token {line : String} {position : Nat}
    {expected : List Expected} {found : Option String}
    (h : parse line = .error (.unexpected position expected found)) :
    ∃ before t after, tokenize line = .ok (before ++ t :: after) ∧
      t.span.start = position ∧ (∀ u ∈ before ++ after, u.span.start ≠ position) ∧
      found = (if t.kind = .endMarker then none else some t.text) ∧
      Viable before ∧ (∀ ys e, parseTokens (before ++ t :: ys) ≠ .ok (some e)) ∧
      (t.kind = .endMarker → ∀ e, parseTokens before ≠ .ok (some e)) ∧
      (∀ k, .token k ∈ expected → ∃ u : Token, u.kind = k ∧ u.Genuine ∧ Viable (before ++ [u])) ∧
      (.endOfLine ∈ expected → ∃ e, parseTokens before = .ok (some e)) := by
  obtain ⟨before, t, after, r, htokens, hstart, hfound, hlive, hreach, hrefuses⟩ :=
    exists_refuses h
  have hholds := (hrefuses []).holds hreach.reads
  refine ⟨before, t, after, htokens, hstart, ?_, hfound, hlive.viable hreach,
    fun ys => (hrefuses ys).parseTokens_ne hreach hlive, fun hend => ?_, fun k hk => ?_,
    fun hend => ?_⟩
  · -- the places of tokens increase
    have hplaces := (tiles_of_tokenize htokens).pairwise_start
    obtain ⟨-, hafter, hbetween⟩ := List.pairwise_append.mp hplaces
    intro u hu
    rw [← hstart]
    rcases List.mem_append.mp hu with hu | hu
    · exact Nat.ne_of_lt (hbetween u hu t List.mem_cons_self)
    · exact Nat.ne_of_gt ((List.pairwise_cons.mp hafter).1 u hu)
  · have hnone : (TokenLine.ofTokens [t]).tokens = (TokenLine.ofTokens []).tokens := by
      simp [TokenLine.ofTokens, hend]
    have hrefused := hrefuses []
    rw [hnone] at hrefused
    simpa using hrefused.parseTokens_ne hreach hlive
  · obtain ⟨hne, s, hs⟩ := hholds _ hk
    have hsample : .endMarker ∉ [k] := fun hmem => hne (List.mem_singleton.mp hmem).symm
    exact ⟨k.sample, rfl, Kind.genuine_sample hne,
      (hlive.append_samples hsample).viable (hreach.snoc hs)⟩
  · obtain ⟨e, he⟩ := hholds _ hend
    refine ⟨e, hlive.parseTokens_eq_ok_some_iff.mpr ?_⟩
    rw [hreach.read, he]
    rfl

/-- A call takes no assignment: `f(a = 1)` is refused at the equality sign, where a comma or the
parenthesis could stand. -/
theorem parse_assignment_in_call :
    parse "f(a = 1)" =
        .error (.unexpected 4 [.token .comma, .token .rightParen] (some "=")) ∧
      ∃ before t after, tokenize "f(a = 1)" = .ok (before ++ t :: after) ∧ t.span.start = 4 ∧
        Viable before ∧ (∀ ys e, parseTokens (before ++ t :: ys) ≠ .ok (some e)) ∧
        ∃ u : Token, u.kind = .rightParen ∧ u.Genuine ∧ Viable (before ++ [u]) := by
  have hname : (Cursor.start "f(a = 1)").next =
      (.ok ⟨.name, "f", ⟨0, 1⟩⟩, ⟨1, "(a = 1)".toList⟩) := rfl
  have hopen : (Cursor.mk 1 "(a = 1)".toList).next =
      (.ok ⟨.leftParen, "(", ⟨1, 2⟩⟩, ⟨2, "a = 1)".toList⟩) := rfl
  have harg : (Cursor.mk 2 "a = 1)".toList).next =
      (.ok ⟨.name, "a", ⟨2, 3⟩⟩, ⟨3, " = 1)".toList⟩) := rfl
  have hequal : (Cursor.mk 3 " = 1)".toList).next =
      (.ok ⟨.equal, "=", ⟨4, 5⟩⟩, ⟨5, " 1)".toList⟩) := rfl
  have hone : (Cursor.mk 5 " 1)".toList).next =
      (.ok ⟨.number, "1", ⟨6, 7⟩⟩, ⟨7, ")".toList⟩) := rfl
  have hclose : (Cursor.mk 7 ")".toList).next =
      (.ok ⟨.rightParen, ")", ⟨7, 8⟩⟩, ⟨8, []⟩) := rfl
  have hend : (Cursor.mk 8 []).next = (.ok (Token.ending 8), ⟨8, []⟩) := rfl
  have htokens : tokenize "f(a = 1)" = .ok [⟨.name, "f", ⟨0, 1⟩⟩, ⟨.leftParen, "(", ⟨1, 2⟩⟩,
      ⟨.name, "a", ⟨2, 3⟩⟩, ⟨.equal, "=", ⟨4, 5⟩⟩, ⟨.number, "1", ⟨6, 7⟩⟩,
      ⟨.rightParen, ")", ⟨7, 8⟩⟩, Token.ending 8] := by
    rw [tokenize, Cursor.tokens_of_next_ok hname, Cursor.tokens_of_next_ok hopen,
      Cursor.tokens_of_next_ok harg, Cursor.tokens_of_next_ok hequal,
      Cursor.tokens_of_next_ok hone, Cursor.tokens_of_next_ok hclose,
      Cursor.tokens_of_next_ok hend]
    rfl
  have hparse : parse "f(a = 1)" =
      .error (.unexpected 4 [.token .comma, .token .rightParen] (some "=")) := by
    rw [parse, htokens]
    rfl
  obtain ⟨before, t, after, hsplit, hstart, -, -, hviable, hwrong, -, hfits, -⟩ :=
    parse_unexpected_at_first_wrong_token hparse
  exact ⟨hparse, before, t, after, hsplit, hstart, hviable, hwrong, hfits .rightParen (by decide)⟩

end ShapeFault
