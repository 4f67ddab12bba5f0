import ShapeFault.Proofs.Descent.Follows

/-!
# Operators where a descent returns

A descent applies an operator as soon as its right operand has returned, the reader of lines when
the token behind it is known. In between no token may be taken for a part of the operand: it
`EndsAt` the position where the descent returns. There the reader can apply the operator as well
(`TokenLine.outcome_binary`, `TokenLine.outcome_unary`).

A descent also asks for an operand without a look at what is open, and the reader lets some
constructs end instead. `Due` says that it does not.
-/

namespace ShapeFault

open Token (Kind)

/-! ### Tiers -/

namespace Tier

theorem rank_injective : Function.Injective rank := by
  intro l l' h
  cases l <;> cases l' <;> first | rfl | cases h

/-- No token of a kind goes on with an expression of a tier. -/
def EndsAt (l : Tier) (k : Kind) : Prop :=
  k ≠ .dot ∧ k ≠ .leftParen ∧ k ≠ .leftBracket ∧
    ∀ op ∈ BinaryOp.ofKind? k, op.tier.rank < l.rank

variable {l : Tier} {k : Kind} {op : BinaryOp}

theorem endsAt_endMarker (l : Tier) : l.EndsAt .endMarker :=
  ⟨by decide, by decide, by decide, by rintro _ ⟨⟩⟩

/-- An operand ends where no member, call or index follows. -/
theorem endsAt_suffixed (hdot : k ≠ .dot) (hparen : k ≠ .leftParen) (hbracket : k ≠ .leftBracket) :
    suffixed.EndsAt k :=
  ⟨hdot, hparen, hbracket, fun op _ => by cases op <;> decide⟩

/-- Where an operand ends, so do all its signs. -/
theorem EndsAt.unary (h : suffixed.EndsAt k) : unary.EndsAt k :=
  ⟨h.1, h.2.1, h.2.2.1, fun op _ => by cases op <;> decide⟩

/-- An expression ends where its last operand does, if no operator of its tier follows. -/
theorem EndsAt.loosen (h : l.tighter.EndsAt k) (hl : l.rank < 9)
    (hop : ∀ op : BinaryOp, op.tier = l → op.kind ≠ k) : l.EndsAt k := by
  refine ⟨h.1, h.2.1, h.2.2.1, fun op hmem => ?_⟩
  have hlt : op.tier.rank < l.rank + 1 := rank_tighter_of_lt hl ▸ h.2.2.2 op hmem
  have hne : op.tier.rank ≠ l.rank := fun heq =>
    hop op (rank_injective heq) (BinaryOp.kind_of_ofKind? hmem).symm
  omega

/-- Nothing extends an expression of the loosest tier. -/
theorem EndsAt.ends (h : boolean.EndsAt k) : Ends k := by
  refine ⟨h.1, h.2.1, h.2.2.1, Option.eq_none_iff_forall_not_mem.mpr fun op hmem => ?_⟩
  have hlt := h.2.2.2 op hmem
  exact absurd (boolean_rank_le op.tier) (Nat.not_le_of_lt hlt)

theorem operator?_eq_some_iff : l.operator? k = some op ↔ op.tier = l ∧ op.kind = k := by
  constructor
  · intro h
    simpa using List.find?_some h
  · rintro ⟨rfl, rfl⟩
    cases op <;> rfl

theorem operator?_eq_none (h : l.operator? k = none) (hop : op.tier = l) : op.kind ≠ k := by
  intro hk
  rw [operator?_eq_some_iff.mpr ⟨hop, hk⟩] at h
  cases h

end Tier

/-! ### Applying an operator early -/

/-- An operator closes those that are complete where its token can follow them. -/
theorem BinaryOp.closes_le_binding {op op' : BinaryOp} (h : op'.tier.rank < op.rightTier.rank) :
    op'.closes ≤ op.binding := by
  revert h
  cases op <;> cases op' <;> decide

/-- The open operator that is innermost may be applied if whatever comes next would do so. -/
theorem TokenLine.read_congr_closed {cs cs' : List Construct} {e e' : Node} {ts : List Token}
    {l : Tier} (hts : ∀ t ∈ ts.head?, l.EndsAt t.kind)
    (hzero : closeTighter 0 cs e = closeTighter 0 cs' e')
    (hclose : ∀ op : BinaryOp, op.tier.rank < l.rank →
      closeTighter op.closes cs e = closeTighter op.closes cs' e') :
    read ⟨cs, .operator e⟩ ts = read ⟨cs', .operator e'⟩ ts := by
  cases ts with
  | nil => simp only [read, Reading.finish, hzero]
  | cons t ts =>
    obtain ⟨hdot, hparen, hbracket, hop⟩ := hts t rfl
    cases hk : BinaryOp.ofKind? t.kind with
    | none =>
      have hends : Ends t.kind := ⟨hdot, hparen, hbracket, hk⟩
      simp only [read, step_of_ends hends, hzero]
    | some op =>
      simp only [read, step_binary (BinaryOp.kind_of_ofKind? hk), hclose op (hop op hk)]

/-- A tier whose expressions end at a position of a line. -/
def TokenLine.EndsAt (l : TokenLine) (tier : Tier) (p : Nat) : Prop :=
  ∀ t ∈ (l.tokens.drop p).head?, tier.EndsAt t.kind

namespace TokenLine

variable {l : TokenLine} {cs : List Construct} {a e : Node} {p : Nat}

theorem outcome_binary {op : BinaryOp} (h : l.EndsAt op.rightTier p) :
    l.outcome ⟨.binary op a :: cs, .operator e⟩ p =
      l.outcome ⟨cs, .operator (.binary op a e)⟩ p := by
  have hread : read ⟨.binary op a :: cs, .operator e⟩ (l.tokens.drop p) =
      read ⟨cs, .operator (.binary op a e)⟩ (l.tokens.drop p) := by
    refine read_congr_closed h rfl fun op' hlt => ?_
    simp only [closeTighter, if_pos (BinaryOp.closes_le_binding hlt)]
  simp only [outcome, hread]

theorem outcome_unary {op : UnaryOp} (h : l.EndsAt .unary p) :
    l.outcome ⟨.unary op :: cs, .operator e⟩ p = l.outcome ⟨cs, .operator (.unary op e)⟩ p := by
  have hread : read ⟨.unary op :: cs, .operator e⟩ (l.tokens.drop p) =
      read ⟨cs, .operator (.unary op e)⟩ (l.tokens.drop p) :=
    read_congr_closed h rfl fun _ _ => rfl
  simp only [outcome, hread]

end TokenLine

namespace Descent.Here

variable {tokens : Tokens} {l : TokenLine} {p : Nat} {t : Token} {tier : Tier}

theorem endsAt (h : Here tokens l p t) (hends : l.EndsAt tier p) : tier.EndsAt t.kind := by
  cases h with
  | token _ _ hrest => exact hends t (by rw [hrest]; rfl)
  | mark _ _ hk => exact hk ▸ tier.endsAt_endMarker

theorem endsAt_of_kind (h : Here tokens l p t) (hk : tier.EndsAt t.kind) : l.EndsAt tier p := by
  intro u hu
  cases h with
  | token _ _ hrest =>
    rw [hrest] at hu
    cases hu
    exact hk
  | mark _ hrest =>
    rw [hrest] at hu
    cases hu

theorem unique {u : Token} (h : Here tokens l p t) (h' : Here tokens l p u) : t = u :=
  Option.some.inj (h.get.symm.trans h'.get)

end Descent.Here

/-! ### Where an operand is due -/

/-- A token that starts no operand is refused where `cs` are open: none of them ends or goes on with
it. -/
def Due (cs : List Construct) (k : Kind) : Prop :=
  Reading.withoutOperand cs k =
    .error (.expected (if k = .leftBrace then [.noBraces] else Expected.operand))

/-- The innermost construct is none that may end or go on where an operand is due. -/
def Asks : List Construct → Prop
  | .call _ [] :: _ | .list [] :: _ | .index _ _ _ :: _ => False
  | _ => True

/-- The kinds of tokens in front of which a part of an index item may be absent. -/
def ItemPart.absentBefore : ItemPart → List Kind
  | first => [.colon]
  | stop _ | step _ _ => [.colon, .comma, .rightBracket]

section

variable {cs : List Construct} {a : Node} {is : List IndexItem} {part : ItemPart} {k : Kind}

theorem ItemPart.cases_of_mem_absentBefore (hk : k ∈ part.absentBefore) :
    k = .colon ∨ k = .comma ∨ k = .rightBracket := by
  cases part with
  | first => exact Or.inl (List.mem_singleton.mp hk)
  | stop | step => simpa [absentBefore] using hk

theorem due_of_asks (h : Asks cs) : Due cs k := by
  unfold Due Reading.withoutOperand
  split <;> first | exact h.elim | simp_all

theorem due_index (hk : k ∉ part.absentBefore) (hdots : part = .first → k ≠ .ellipsis) :
    Due (.index a is part :: cs) k := by
  unfold Due Reading.withoutOperand
  split <;> simp_all [ItemPart.absentBefore]

theorem withoutOperand_index (hk : k ∈ part.absentBefore) :
    Reading.withoutOperand (.index a is part :: cs) k =
      Reading.afterPart a is part cs none k := by
  rcases ItemPart.cases_of_mem_absentBefore hk with rfl | rfl | rfl
  · cases part <;> rfl
  all_goals
    cases part with
    | first => exact absurd hk (by decide)
    | stop | step => rfl

end

end ShapeFault
