import ShapeFault.Proofs.Descent.Operators

/-!
# Expressions in a descent

What the functions for expressions do from one position on, if all functions do theirs from every
later position (`Descends`). A function calls another one either behind a token that has been
passed, where the hypothesis applies, or at its own position for a tighter tier, so the lemmas go
from the operands (`primary_follows`) to the loosest tier (`expression_follows`).
-/

namespace ShapeFault

open Token (Kind)

theorem BinaryOp.closes_tier (op : BinaryOp) : op.tier.closes = op.closes := by
  cases op <;> rfl

/-- An operator of a tier that is read where `cs` are open closes none of them. -/
theorem step_operator {cs : List Construct} {e : Node} {t : Token} {op : BinaryOp}
    (hk : t.kind = op.kind) (hcs : Waits op.tier cs) :
    (⟨cs, .operator e⟩ : Reading).step t = .ok ⟨.binary op e :: cs, .operand⟩ := by
  have hrank : op.tier.rank ≤ 6 := by cases op <;> decide
  have hsettled : Settled op.closes cs := op.closes_tier ▸ hcs hrank
  rw [step_binary hk, closeTighter_of_settled hsettled]

namespace Descent

/-- The kinds of tokens that start an operand or stand in front of one. -/
def operandKinds : List Kind :=
  [.name, .number, .string, .trueWord, .falseWord, .noneWord, .minus, .notWord, .leftParen,
   .leftBracket]

theorem step_of_not_mem {cs : List Construct} {t : Token} (h : t.kind ∉ operandKinds) :
    (⟨cs, .operand⟩ : Reading).step t = Reading.withoutOperand cs t.kind := by
  simp only [Reading.step, Reading.stepOperand]
  split <;> simp_all [operandKinds]

theorem open_operand (cs : List Construct) : (⟨cs, .operand⟩ : Reading).Open := by
  rintro _ ⟨⟩

theorem afterExpression_paren {cs : List Construct} {e : Node} (k : Kind) :
    Reading.afterExpression (.paren :: cs) e k =
      if k = .rightParen then .ok ⟨cs, .operator (.paren e)⟩
      else .error (.expected [.token .rightParen]) := by
  cases k <;> rfl

theorem Here.hasInside {tokens : Tokens} {l : TokenLine} {p : Nat} {t : Token}
    (h : Here tokens l p t) (hl : Carries tokens l) (hk : t.kind = .string) :
    Text.hasInside t.text := by
  cases h with
  | token _ _ hrest =>
    have hmem : t ∈ l.tokens.drop p := by
      rw [hrest]
      exact List.mem_cons_self
    exact hl.hasInside t (List.mem_of_mem_drop hmem) hk
  | mark _ _ hmark => rw [hk] at hmark; cases hmark

/-- A bracket with elements in it. -/
inductive Bracket where
  | call (callee : Node)
  | list

namespace Bracket

def construct : Bracket → List Node → Construct
  | call f, es => .call f es
  | list, es => .list es

def close : Bracket → Kind
  | call _ => .rightParen
  | list => .rightBracket

def node : Bracket → List Node → Node
  | call f, es => .call f es
  | list, es => .list es

end Bracket

/-- What is known behind an expression of a tier: the position is not in front of `n`, the token
there does not extend the expression, and the reading goes on behind it. -/
structure Arrived (l : TokenLine) (n : Nat) (tier : Tier) (cs : List Construct) (e : Node) (q : Nat)
    (r : Reading) : Prop where
  le : n ≤ q
  endsAt : l.EndsAt tier q
  reading : r = ⟨cs, .operator e⟩

theorem Arrived.weaken {l : TokenLine} {n m : Nat} {tier : Tier} {cs : List Construct} {e : Node}
    {q : Nat} {r : Reading} (h : Arrived l n tier cs e q r) (hle : m ≤ n) :
    Arrived l m tier cs e q r :=
  ⟨Nat.le_trans hle h.le, h.endsAt, h.reading⟩

/-- What the functions do from the position `p` on. -/
structure Descends (tokens : Tokens) (l : TokenLine) (p : Nat) : Prop where
  expression {tier : Tier} {cs : List Construct} (htier : tier.rank ≤ 7) (hcs : Waits tier cs)
    (hdue : ∀ t, Here tokens l p t → Due cs t.kind) :
    Follows l (tokens.expression tier) p ⟨cs, .operand⟩ (Arrived l (p + 1) tier cs)
  operators {tier : Tier} {cs : List Construct} {left : Node} (htier : tier.rank ≤ 5)
    (hcs : Waits tier cs) (hends : l.EndsAt tier.tighter p) :
    Follows l (tokens.operators tier left) p ⟨cs, .operator left⟩ (Arrived l p tier cs)
  suffixes {cs : List Construct} {e : Node} :
    Follows l (tokens.suffixes e) p ⟨cs, .operator e⟩ (Arrived l p .suffixed cs)
  moreElements {b : Bracket} {cs : List Construct} {es : List Node}
    (hdue : ∀ t, Here tokens l p t → Due (b.construct es :: cs) t.kind) :
    Follows l (tokens.moreElements b.close es) p ⟨b.construct es :: cs, .operand⟩
      fun es' q r => p < q ∧ r = ⟨cs, .operator (b.node es')⟩
  moreIndices {a : Node} {is : List IndexItem} {cs : List Construct} :
    Follows l (tokens.moreIndices is) p ⟨.index a is .first :: cs, .operand⟩
      fun is' q r => p < q ∧ r = ⟨cs, .operator (.index a is')⟩

section

variable {tokens : Tokens} {l : TokenLine} {p : Nat} {cs : List Construct} {tier : Tier}

/-- An expression of any tier, in a bracket or as a side of an assignment. -/
theorem Descends.inside (h : Descends tokens l p) (cs : List Construct) (hcs : Settled 0 cs)
    (hasks : Asks cs) :
    Follows l (tokens.expression .boolean) p ⟨cs, .operand⟩
      (Arrived l (p + 1) .boolean cs) :=
  h.expression (by decide) (waits_of_settled_zero hcs _) fun _ _ => due_of_asks hasks

/-! ### Elements and items behind their bracket -/

theorem Descends.elements (h : Descends tokens l p) (hl : Carries tokens l)
    (hp : p ≤ l.tokens.length) (b : Bracket) :
    Follows l (tokens.elements b.close) p ⟨b.construct [] :: cs, .operand⟩
      fun es q r => p < q ∧ r = ⟨cs, .operator (b.node es)⟩ := by
  obtain ⟨t, ht⟩ := hl.exists_here hp
  rw [Tokens.elements]
  refine .position_bind (.current_bind ht ?_)
  by_cases hk : t.kind = b.close
  · rw [if_pos hk]
    have hstep : (⟨b.construct [] :: cs, .operand⟩ : Reading).step t =
        .ok ⟨cs, .operator (b.node [])⟩ := by
      cases b <;> simp only [Reading.step, Reading.stepOperand, hk, Bracket.close] <;> rfl
    exact .advance_bind hl ht hstep (.arrive p.lt_succ_self ⟨p.lt_succ_self, rfl⟩)
  · rw [if_neg hk]
    have hdue : ∀ u, Here tokens l p u → Due (b.construct [] :: cs) u.kind := by
      intro u hu
      obtain rfl := ht.unique hu
      unfold Due Reading.withoutOperand
      cases b <;> split <;> simp_all [Bracket.construct, Bracket.close]
    refine (h.moreElements hdue).bind ?_
    rintro es q r - ⟨hlt, rfl⟩
    exact .arrive hlt ⟨hlt, rfl⟩

theorem Descends.indices (h : Descends tokens l p) {a : Node} :
    Follows l tokens.indices p ⟨.index a [] .first :: cs, .operand⟩
      fun is q r => p < q ∧ r = ⟨cs, .operator (.index a is)⟩ := by
  rw [Tokens.indices]
  refine .position_bind (h.moreIndices.bind ?_)
  rintro is q r - ⟨hlt, rfl⟩
  exact .arrive hlt ⟨hlt, rfl⟩

/-! ### Operands -/

/-- The literal of the token at the position, where an operand is due. -/
theorem literal_follows {t : Token} (hl : Carries tokens l) (ht : Here tokens l p t)
    (hdue : Due cs t.kind)
    (hkind : t.kind ∉ [Kind.name, .minus, .notWord, .leftParen, .leftBracket]) :
    Follows l tokens.literal p ⟨cs, .operand⟩ fun v q r => q = p ∧ r = ⟨cs, .operand⟩ ∧
      r.step t = .ok ⟨cs, .operator (.literal v)⟩ := by
  unfold Tokens.literal
  refine .current_bind ht ?_
  split
  case h_1 hk =>
    cases hv : Literal.ofNumber? t.text with
    | some v => exact .pure ⟨rfl, rfl, by simp [Reading.step, Reading.stepOperand, hk, hv]⟩
    | none => exact .badNumber ht (by simp [Reading.step, Reading.stepOperand, hk, hv])
  case h_2 hk =>
    rw [if_pos (ht.hasInside hl hk)]
    exact .pure ⟨rfl, rfl, by simp [Reading.step, Reading.stepOperand, hk]⟩
  case h_3 hk | h_4 hk | h_5 hk =>
    exact .pure ⟨rfl, rfl, by simp [Reading.step, Reading.stepOperand, hk]⟩
  case h_6 hk =>
    refine .fail ht (fun _ => open_operand cs) ?_
    rw [step_of_not_mem (by rw [hk]; decide), hdue, if_pos hk]
  case h_7 hnumber hstring htrue hfalse hnone hbrace =>
    have hnot : t.kind ∉ operandKinds := by
      simp_all [operandKinds]
    refine .fail ht (fun _ => open_operand cs) ?_
    rw [step_of_not_mem hnot, hdue, if_neg hbrace]

section

variable (hl : Carries tokens l) (hp : p ≤ l.tokens.length)
  (ih : ∀ q, p < q → q ≤ l.tokens.length → Descends tokens l q)

include hl hp ih

/-- An operand, where no sign stands. -/
theorem primary_follows (hdue : ∀ t, Here tokens l p t → Due cs t.kind)
    (hsign : ∀ t, Here tokens l p t → UnaryOp.ofKind? t.kind = none) :
    Follows l tokens.primary p ⟨cs, .operand⟩ fun e q r => p < q ∧ r = ⟨cs, .operator e⟩ := by
  obtain ⟨t, ht⟩ := hl.exists_here hp
  rw [Tokens.primary]
  refine .position_bind (.current_bind ht ?_)
  split
  case h_1 hk =>
    have hstep : (⟨cs, .operand⟩ : Reading).step t = .ok ⟨cs, .operator (.name t.text)⟩ := by
      simp [Reading.step, Reading.stepOperand, hk]
    exact .advance_bind hl ht hstep (.arrive p.lt_succ_self ⟨p.lt_succ_self, rfl⟩)
  case h_2 hk =>
    have hstep : (⟨cs, .operand⟩ : Reading).step t = .ok ⟨.paren :: cs, .operand⟩ := by
      simp [Reading.step, Reading.stepOperand, hk]
    have hlater := ih (p + 1) p.lt_succ_self (ht.lt_of_step hstep)
    refine .advance_bind hl ht hstep
      ((hlater.inside (.paren :: cs) trivial trivial).bind ?_)
    rintro e q r hq ⟨hle, hends, rfl⟩
    obtain ⟨u, hu⟩ := hl.exists_here hq
    have hclose : (⟨.paren :: cs, .operator e⟩ : Reading).step u =
        if u.kind = .rightParen then .ok ⟨cs, .operator (.paren e)⟩
        else .error (.expected [.token .rightParen]) := by
      rw [step_of_ends (hu.endsAt hends).ends]
      exact afterExpression_paren u.kind
    exact .expect_bind hl hu (by rintro _ ⟨⟩) hclose fun _ =>
      .arrive (by omega) ⟨by omega, rfl⟩
  case h_3 hk =>
    have hstep : (⟨cs, .operand⟩ : Reading).step t = .ok ⟨.list [] :: cs, .operand⟩ := by
      simp [Reading.step, Reading.stepOperand, hk]
    have hq := ht.lt_of_step hstep
    refine .advance_bind hl ht hstep
      (((ih (p + 1) p.lt_succ_self hq).elements hl hq .list).bind ?_)
    rintro es q r - ⟨hlt, rfl⟩
    exact .arrive (by omega) ⟨by omega, rfl⟩
  case h_4 hname hparen hbracket =>
    have hsign := hsign t ht
    have hnot : t.kind ∉ [Kind.name, .minus, .notWord, .leftParen, .leftBracket] := by
      have hminus : t.kind ≠ .minus := fun hk => by
        rw [hk] at hsign
        cases hsign
      have hword : t.kind ≠ .notWord := fun hk => by
        rw [hk] at hsign
        cases hsign
      simp only [List.mem_cons, List.not_mem_nil, or_false, not_or]
      exact ⟨hname, hminus, hword, hparen, hbracket⟩
    refine (literal_follows hl ht (hdue t ht) hnot).bind ?_
    rintro v q r - ⟨rfl, rfl, hstep⟩
    exact .advance_bind hl ht hstep (.arrive q.lt_succ_self ⟨q.lt_succ_self, rfl⟩)

/-- The members, calls and indices behind an operand. -/
theorem suffixes_follows {e : Node} :
    Follows l (tokens.suffixes e) p ⟨cs, .operator e⟩ (Arrived l p .suffixed cs) := by
  obtain ⟨t, ht⟩ := hl.exists_here hp
  rw [Tokens.suffixes]
  refine .position_bind (.current_bind ht ?_)
  -- a suffix is read at its opening token, and the loop goes on behind it
  have hround : ∀ {e' : Node} {q : Nat}, p < q → q ≤ l.tokens.length →
      Follows l (note p >>= fun _ => tokens.suffixes e') q ⟨cs, .operator e'⟩
        (Arrived l p .suffixed cs) := fun hlt hq =>
    .note_bind hlt ((ih _ hlt hq).suffixes.mono fun _ _ _ _ h => h.weaken (Nat.le_of_lt hlt))
  split
  case h_1 hk =>
    have hstep : (⟨cs, .operator e⟩ : Reading).step t = .ok ⟨cs, .member e⟩ := by
      simp [Reading.step, Reading.stepOperator, hk]
    have hq := ht.lt_of_step hstep
    obtain ⟨u, hu⟩ := hl.exists_here hq
    refine .advance_bind hl ht hstep (.expect_bind hl hu (by rintro _ ⟨⟩) rfl fun hname => ?_)
    have hmember : (⟨cs, .member e⟩ : Reading).step u =
        .ok ⟨cs, .operator (.member e u.text)⟩ := if_pos hname
    exact hround (by omega) (hu.lt_of_step hmember)
  case h_2 hk =>
    have hstep : (⟨cs, .operator e⟩ : Reading).step t = .ok ⟨.call e [] :: cs, .operand⟩ := by
      simp [Reading.step, Reading.stepOperator, hk]
    have hq := ht.lt_of_step hstep
    refine .advance_bind hl ht hstep
      (((ih (p + 1) p.lt_succ_self hq).elements hl hq (.call e)).bind ?_)
    rintro es q r hq' ⟨hlt, rfl⟩
    exact hround (by omega) hq'
  case h_3 hk =>
    have hstep : (⟨cs, .operator e⟩ : Reading).step t =
        .ok ⟨.index e [] .first :: cs, .operand⟩ := by
      simp [Reading.step, Reading.stepOperator, hk]
    have hq := ht.lt_of_step hstep
    refine .advance_bind hl ht hstep ((ih (p + 1) p.lt_succ_self hq).indices.bind ?_)
    rintro es q r hq' ⟨hlt, rfl⟩
    exact hround (by omega) hq'
  case h_4 hdot hparen hbracket =>
    exact .pure ⟨Nat.le_refl p,
      ht.endsAt_of_kind (Tier.endsAt_suffixed hdot hparen hbracket), rfl⟩

/-! ### Operators -/

/-- The operators of a chain, each with its right operand. -/
theorem operators_follows {left : Node} (htier : tier.rank ≤ 5) (hcs : Waits tier cs)
    (hends : l.EndsAt tier.tighter p) :
    Follows l (tokens.operators tier left) p ⟨cs, .operator left⟩ (Arrived l p tier cs) := by
  obtain ⟨t, ht⟩ := hl.exists_here hp
  rw [Tokens.operators]
  refine .position_bind (.current_bind ht ?_)
  cases hop : tier.operator? t.kind with
  | none =>
    have hloose := (ht.endsAt hends).loosen (by omega) fun _ => Tier.operator?_eq_none hop
    exact .pure ⟨Nat.le_refl p, ht.endsAt_of_kind hloose, rfl⟩
  | some op =>
    obtain ⟨rfl, hk⟩ := Tier.operator?_eq_some_iff.mp hop
    have hright : op.rightTier = op.tier.tighter := BinaryOp.rightTier_of_ne_pow fun h => by
      subst h
      exact absurd htier (by decide)
    have hstep := step_operator (e := left) hk.symm hcs
    have hlater := ih (p + 1) p.lt_succ_self (ht.lt_of_step hstep)
    have hwaits : Waits op.tier.tighter (.binary op left :: cs) :=
      hright ▸ waits_rightTier op left cs
    have hrank : op.tier.tighter.rank ≤ 7 := by
      rw [Tier.rank_tighter_of_lt (by omega)]
      omega
    refine .advance_bind hl ht hstep
      ((hlater.expression hrank hwaits fun u _ => due_of_asks trivial).bind ?_)
    rintro right q r hq ⟨hle, hends', rfl⟩
    -- the operator is applied here, and the loop goes on behind its right operand
    refine .note_bind (by omega) (.congr ?_ (TokenLine.outcome_binary (hright.symm ▸ hends')))
    exact ((ih q (by omega) hq).operators htier hcs hends').mono fun _ _ _ _ h =>
      h.weaken (by omega)

omit hl hp ih in
theorem expression_eq_chain (htier : tier.rank ≤ 5) :
    tokens.expression tier = tokens.chain tier := by
  rw [Tokens.expression]
  all_goals
    rintro rfl
    exact absurd htier (by decide)

omit hl hp in
/-- A chain, if its first operand is read at the same position. -/
theorem chain_follows (htier : tier.rank ≤ 5) (hcs : Waits tier cs)
    (hleft : Follows l (tokens.expression tier.tighter) p ⟨cs, .operand⟩
      (Arrived l (p + 1) tier.tighter cs)) :
    Follows l (tokens.chain tier) p ⟨cs, .operand⟩ (Arrived l (p + 1) tier cs) := by
  rw [Tokens.chain]
  refine .position_bind (hleft.bind ?_)
  rintro left q r hq ⟨hle, hends, rfl⟩
  refine ((ih q hle hq).operators htier hcs hends).bind ?_
  rintro e q' r hq' ⟨hle', hends', rfl⟩
  exact .arrive (by omega) ⟨by omega, hends', rfl⟩

theorem suffixed_follows (hdue : ∀ t, Here tokens l p t → Due cs t.kind)
    (hsign : ∀ t, Here tokens l p t → UnaryOp.ofKind? t.kind = none) :
    Follows l tokens.suffixed p ⟨cs, .operand⟩ (Arrived l (p + 1) .suffixed cs) := by
  rw [Tokens.suffixed]
  refine .position_bind ((primary_follows hl hp ih hdue hsign).bind ?_)
  rintro e q r hq ⟨hlt, rfl⟩
  refine ((ih q hlt hq).suffixes).bind ?_
  rintro e' q' r hq' ⟨hle', hends, rfl⟩
  exact .arrive (by omega) ⟨by omega, hends, rfl⟩

theorem unary_follows (hdue : ∀ t, Here tokens l p t → Due cs t.kind) :
    Follows l tokens.unary p ⟨cs, .operand⟩ (Arrived l (p + 1) .unary cs) := by
  obtain ⟨t, ht⟩ := hl.exists_here hp
  rw [Tokens.unary]
  refine .position_bind (.current_bind ht ?_)
  cases hop : UnaryOp.ofKind? t.kind with
  | none =>
    refine (suffixed_follows hl hp ih hdue fun u hu => ht.unique hu ▸ hop).bind ?_
    rintro e q r - ⟨hle, hends, rfl⟩
    exact .arrive (by omega) ⟨hle, fun u hu => (hends u hu).unary, rfl⟩
  | some op =>
    have hk : t.kind = op.kind := by
      simpa [eq_comm] using List.find?_some hop
    have hstep : (⟨cs, .operand⟩ : Reading).step t = .ok ⟨.unary op :: cs, .operand⟩ := by
      cases op <;> simp [Reading.step, Reading.stepOperand, hk, UnaryOp.kind]
    have hlater := ih (p + 1) p.lt_succ_self (ht.lt_of_step hstep)
    have hwaits : Waits .unary (.unary op :: cs) := fun h => absurd h (by decide)
    have hexpr := hlater.expression (by decide) hwaits fun u _ => due_of_asks trivial
    rw [Tokens.expression] at hexpr
    refine .advance_bind hl ht hstep (hexpr.bind ?_)
    rintro e q r - ⟨hle, hends, rfl⟩
    exact .congr (.arrive (by omega) ⟨by omega, hends, rfl⟩) (TokenLine.outcome_unary hends)

theorem power_follows (hcs : Waits .power cs) (hdue : ∀ t, Here tokens l p t → Due cs t.kind) :
    Follows l tokens.power p ⟨cs, .operand⟩ (Arrived l (p + 1) .power cs) := by
  rw [Tokens.power]
  refine .position_bind ((unary_follows hl hp ih hdue).bind ?_)
  rintro base q r hq ⟨hle, hends, rfl⟩
  obtain ⟨t, ht⟩ := hl.exists_here hq
  refine .current_bind ht ?_
  by_cases hk : t.kind = .doubleStar
  · rw [if_pos hk]
    have hstep : (⟨cs, .operator base⟩ : Reading).step t =
        .ok ⟨.binary .pow base :: cs, .operand⟩ := step_operator hk hcs
    have hlater := ih (q + 1) (by omega) (ht.lt_of_step hstep)
    have hexpr := hlater.expression (by decide) (waits_rightTier .pow base cs) fun u _ =>
      due_of_asks trivial
    rw [BinaryOp.rightTier, Tokens.expression] at hexpr
    refine .advance_bind hl ht hstep (hexpr.bind ?_)
    rintro exponent q' r - ⟨hle', hends', rfl⟩
    exact .congr (.arrive (by omega) ⟨by omega, hends', rfl⟩) (TokenLine.outcome_binary hends')
  · rw [if_neg hk]
    have hloose : Tier.power.EndsAt t.kind := by
      have hunary : Tier.power.tighter.EndsAt t.kind := ht.endsAt hends
      refine hunary.loosen (by decide) fun op htier hop => hk ?_
      cases op <;> first | exact hop.symm | cases htier
    exact .arrive (by omega) ⟨hle, ht.endsAt_of_kind hloose, rfl⟩

/-- **Expressions**, from the tightest tier that a descent asks for to the loosest one. -/
theorem expression_follows (htier : tier.rank ≤ 7) (hcs : Waits tier cs)
    (hdue : ∀ t, Here tokens l p t → Due cs t.kind) :
    Follows l (tokens.expression tier) p ⟨cs, .operand⟩ (Arrived l (p + 1) tier cs) := by
  induction hn : 7 - tier.rank generalizing tier with
  | zero =>
    have hrank : tier.rank = Tier.unary.rank := Nat.le_antisymm htier (Nat.le_of_sub_eq_zero hn)
    obtain rfl := Tier.rank_injective hrank
    rw [Tokens.expression]
    exact unary_follows hl hp ih hdue
  | succ n hrec =>
    have hrank : tier.tighter.rank = tier.rank + 1 := Tier.rank_tighter_of_lt (by omega)
    by_cases hpow : tier = .power
    · subst hpow
      rw [Tokens.expression]
      exact power_follows hl hp ih hcs hdue
    · have hne : tier.rank ≠ 6 := fun h => hpow (Tier.rank_injective h)
      rw [expression_eq_chain (by omega)]
      exact chain_follows ih (by omega) hcs (hrec (by omega) hcs.tighter (by omega))

/-- An expression of any tier, in a bracket and at its own position. -/
theorem inside_follows (cs : List Construct) (hcs : Settled 0 cs)
    (hdue : ∀ t, Here tokens l p t → Due cs t.kind) :
    Follows l (tokens.expression .boolean) p ⟨cs, .operand⟩ (Arrived l (p + 1) .boolean cs) :=
  expression_follows hl hp ih (by decide) (waits_of_settled_zero hcs _) hdue

end

end

end Descent

end ShapeFault
