import ShapeFault.Proofs.Descent.Expression

/-!
# Brackets in a descent

The loops for elements and for the items of an index, and what they call, again from one position
on. With the functions for expressions this is all of them, and an induction on the tokens left in
front of the mark gives every position (`descends`): a run ends because each call that is not for
something tighter is made behind a token that has been passed.
-/

namespace ShapeFault

open Token (Kind)

namespace Descent

/-- Behind an element, a comma, the token that closes the bracket, or neither. -/
theorem Bracket.afterExpression (b : Bracket) (cs : List Construct) (es : List Node) (e : Node)
    (k : Kind) :
    Reading.afterExpression (b.construct es :: cs) e k =
      if k = .comma then .ok ⟨b.construct (es ++ [e]) :: cs, .operand⟩
      else if k = b.close then .ok ⟨cs, .operator (b.node (es ++ [e]))⟩
      else .error (.expected [.token .comma, .token b.close]) := by
  cases b <;> cases k <;> rfl

/-- Behind an item of an index. -/
theorem afterItem_eq (a : Node) (is : List IndexItem) (cs : List Construct) (i : IndexItem)
    (k : Kind) :
    Reading.afterItem a is cs i k =
      if k = .comma then .ok ⟨.index a (is ++ [i]) .first :: cs, .operand⟩
      else if k = .rightBracket then .ok ⟨cs, .operator (.index a (is ++ [i]))⟩
      else .error (.expected [.token .comma, .token .rightBracket]) := by
  cases k <;> rfl

/-- Behind two colons an item is complete. -/
theorem afterPart_step {a : Node} {is : List IndexItem} {cs : List Construct}
    {b c d : Option Node} (k : Kind) :
    Reading.afterPart a is (.step b c) cs d k =
      Reading.afterItem a is cs (.slice b c d true) k := by
  cases k <;> rfl

/-- No item is empty. -/
theorem afterPart_absent {a : Node} {is : List IndexItem} {cs : List Construct} {k : Kind}
    (hk : k ≠ .colon) :
    Reading.afterPart a is .first cs none k = .error (.expected Expected.operand) := by
  cases k <;> first | rfl | exact absurd rfl hk

/-- What a reading does with the token at a position, by the kind of it. -/
structure GoesOn (tokens : Tokens) (l : TokenLine) (p : Nat) (r : Reading)
    (f : Kind → Except Refusal Reading) : Prop where
  isOpen : r.Open
  step : ∀ t, Here tokens l p t → r.step t = f t.kind

theorem GoesOn.congr {tokens : Tokens} {l : TokenLine} {p : Nat} {r : Reading}
    {f g : Kind → Except Refusal Reading} (h : GoesOn tokens l p r f)
    (hfg : ∀ t, Here tokens l p t → f t.kind = g t.kind) : GoesOn tokens l p r g :=
  ⟨h.isOpen, fun t ht => (h.step t ht).trans (hfg t ht)⟩

theorem open_index {a : Node} {is : List IndexItem} {part : ItemPart} {cs : List Construct}
    (e : Node) : (⟨.index a is part :: cs, .operator e⟩ : Reading).Open := by
  rintro _ ⟨⟩

section

variable {tokens : Tokens} {l : TokenLine} {p : Nat} {cs : List Construct}
  (hl : Carries tokens l) (hp : p ≤ l.tokens.length)
  (ih : ∀ q, p < q → q ≤ l.tokens.length → Descends tokens l q)

include hl hp ih

/-! ### Elements -/

theorem moreElements_follows {b : Bracket} {es : List Node}
    (hdue : ∀ t, Here tokens l p t → Due (b.construct es :: cs) t.kind) :
    Follows l (tokens.moreElements b.close es) p ⟨b.construct es :: cs, .operand⟩
      fun es' q r => p < q ∧ r = ⟨cs, .operator (b.node es')⟩ := by
  have hsettled : Settled 0 (b.construct es :: cs) := by cases b <;> trivial
  rw [Tokens.moreElements]
  refine .position_bind ((inside_follows hl hp ih _ hsettled hdue).bind ?_)
  rintro e q r hq ⟨hle, hends, rfl⟩
  obtain ⟨t, ht⟩ := hl.exists_here hq
  have hstep : (⟨b.construct es :: cs, .operator e⟩ : Reading).step t =
      Reading.afterExpression (b.construct es :: cs) e t.kind := by
    rw [step_of_ends (ht.endsAt hends).ends, closeTighter_of_settled hsettled]
  rw [b.afterExpression] at hstep
  have hopen : (⟨b.construct es :: cs, .operator e⟩ : Reading).Open := by cases b <;> rintro _ ⟨⟩
  refine .current_bind ht (.separator hl ht (by omega) hopen hstep ?_ ⟨by omega, rfl⟩)
  intro hq'
  have hdue' : ∀ u, Here tokens l (q + 1) u → Due (b.construct (es ++ [e]) :: cs) u.kind :=
    fun u _ => due_of_asks (by cases b <;> cases es <;> trivial)
  refine ((ih (q + 1) (by omega) hq').moreElements hdue').mono ?_
  rintro es' q' r - ⟨hlt, rfl⟩
  exact ⟨by omega, rfl⟩

/-! ### Items of an index -/

/-- A part of an item, which may be absent. -/
theorem bound_follows {a : Node} {is : List IndexItem} (part : ItemPart)
    (hdots : part = .first → ∀ t, Here tokens l p t → t.kind ≠ .ellipsis) :
    Follows l (tokens.bound part.absentBefore) p ⟨.index a is part :: cs, .operand⟩
      fun o q r => p ≤ q ∧ (o.isSome → p < q) ∧
        GoesOn tokens l q r (Reading.afterPart a is part cs o) := by
  obtain ⟨t, ht⟩ := hl.exists_here hp
  rw [Tokens.bound]
  refine .position_bind (.current_bind ht ?_)
  by_cases hk : t.kind ∈ part.absentBefore
  · rw [if_pos hk]
    have hnot : t.kind ∉ operandKinds := by
      rcases ItemPart.cases_of_mem_absentBefore hk with h | h | h <;> rw [h] <;> decide
    refine .pure ⟨Nat.le_refl p, by rintro ⟨⟩, open_operand _, fun u hu => ?_⟩
    obtain rfl := ht.unique hu
    rw [step_of_not_mem hnot, withoutOperand_index hk]
  · rw [if_neg hk]
    have hdue : ∀ u, Here tokens l p u → Due (.index a is part :: cs) u.kind := fun u hu =>
      ht.unique hu ▸ due_index hk fun hfirst => hdots hfirst t ht
    refine (inside_follows hl hp ih (.index a is part :: cs) trivial hdue).bind ?_
    rintro e q r - ⟨hle, hends, rfl⟩
    refine .arrive hle ⟨by omega, fun _ => hle, open_index e, fun u hu => ?_⟩
    rw [step_of_ends (hu.endsAt hends).ends]
    rfl

/-- The rest of a slice, behind its first colon. -/
theorem slice_follows {a : Node} {is : List IndexItem} {start : Nat} {b : Option Node}
    (hstart : start < p) :
    Follows l (tokens.slice start b) p ⟨.index a is (.stop b) :: cs, .operand⟩
      fun i q r => start < q ∧ GoesOn tokens l q r (Reading.afterItem a is cs i) := by
  rw [Tokens.slice]
  refine (bound_follows hl hp ih (.stop b) (by rintro ⟨⟩)).bind ?_
  rintro c q r hq ⟨hle, -, hopen, hnext⟩
  obtain ⟨t, ht⟩ := hl.exists_here hq
  have hstep := hnext t ht
  refine .current_bind ht ?_
  by_cases hcolon : t.kind = .colon
  · rw [if_pos hcolon]
    have hstep' : r.step t = .ok ⟨.index a is (.step b c) :: cs, .operand⟩ := by
      rw [hstep, hcolon]
      rfl
    have hq' := ht.lt_of_step hstep'
    have ih' : ∀ q', q + 1 < q' → q' ≤ l.tokens.length → Descends tokens l q' :=
      fun q' hlt => ih q' (by omega)
    refine .advance_bind hl ht hstep'
      ((bound_follows hl hq' ih' (.step b c) (by rintro ⟨⟩)).bind ?_)
    rintro d q' r' - ⟨hle', -, hgoes⟩
    exact .arrive (by omega) ⟨by omega, hgoes.congr fun u _ => afterPart_step u.kind⟩
  · rw [if_neg hcolon]
    have hitem : ∀ {i : IndexItem}, (ItemPart.stop b).complete c = some i →
        Follows l (arrive start i) q r
          fun i q r => start < q ∧ GoesOn tokens l q r (Reading.afterItem a is cs i) := by
      intro i hi
      refine .arrive (by omega) ⟨by omega, hopen, fun u hu => ?_⟩
      obtain rfl := ht.unique hu
      rw [hstep]
      exact Reading.afterPart_eq_afterItem hi hcolon
    cases b <;> cases c <;> exact hitem rfl

theorem item_follows {a : Node} {is : List IndexItem} :
    Follows l tokens.item p ⟨.index a is .first :: cs, .operand⟩
      fun i q r => p < q ∧ GoesOn tokens l q r (Reading.afterItem a is cs i) := by
  obtain ⟨t, ht⟩ := hl.exists_here hp
  rw [Tokens.item]
  refine .position_bind (.current_bind ht ?_)
  by_cases hdots : t.kind = .ellipsis
  · rw [if_pos hdots]
    have hstep : (⟨.index a is .first :: cs, .operand⟩ : Reading).step t =
        .ok ⟨.index a is .first :: cs, .separator .ellipsis⟩ := by
      simp [Reading.step, Reading.stepOperand, Reading.withoutOperand, hdots]
    exact .advance_bind hl ht hstep (.arrive p.lt_succ_self
      ⟨p.lt_succ_self, by rintro _ ⟨⟩, fun _ _ => rfl⟩)
  · rw [if_neg hdots]
    refine (bound_follows hl hp ih .first fun _ u hu => ht.unique hu ▸ hdots).bind ?_
    rintro b q r hq ⟨hle, hsome, hopen, hnext⟩
    obtain ⟨u, hu⟩ := hl.exists_here hq
    have hstep := hnext u hu
    refine .current_bind hu ?_
    by_cases hcolon : u.kind = .colon
    · rw [if_pos hcolon]
      have hstep' : r.step u = .ok ⟨.index a is (.stop b) :: cs, .operand⟩ := by
        rw [hstep, hcolon]
        rfl
      exact .advance_bind hl hu hstep' (slice_follows hl (hu.lt_of_step hstep')
        (fun q' hlt => ih q' (by omega)) (by omega))
    · rw [if_neg hcolon]
      cases b with
      | some e =>
        refine .arrive (hsome rfl) ⟨hsome rfl, hopen, fun v hv => ?_⟩
        obtain rfl := hu.unique hv
        rw [hstep]
        exact Reading.afterPart_eq_afterItem rfl hcolon
      | none => exact .fail hu (fun _ => hopen) (hstep.trans (afterPart_absent hcolon))

theorem moreIndices_follows {a : Node} {is : List IndexItem} :
    Follows l (tokens.moreIndices is) p ⟨.index a is .first :: cs, .operand⟩
      fun is' q r => p < q ∧ r = ⟨cs, .operator (.index a is')⟩ := by
  rw [Tokens.moreIndices]
  refine .position_bind ((item_follows hl hp ih).bind ?_)
  rintro i q r hq ⟨hlt, hopen, hnext⟩
  obtain ⟨t, ht⟩ := hl.exists_here hq
  have hstep := hnext t ht
  rw [afterItem_eq] at hstep
  refine .current_bind ht (.separator hl ht hlt hopen hstep ?_ ⟨by omega, rfl⟩)
  intro hq'
  refine ((ih (q + 1) (by omega) hq').moreIndices).mono ?_
  rintro is' q' r - ⟨hlt', rfl⟩
  exact ⟨by omega, rfl⟩

end

/-! ### Every position -/

/-- **All functions, from every position up to the mark.** -/
theorem descends {tokens : Tokens} {l : TokenLine} (hl : Carries tokens l) {p : Nat}
    (hp : p ≤ l.tokens.length) : Descends tokens l p := by
  -- the induction is on the tokens that are left in front of the mark
  induction hn : l.tokens.length - p using Nat.strongRecOn generalizing p with
  | ind n hrec =>
    have ih : ∀ q, p < q → q ≤ l.tokens.length → Descends tokens l q :=
      fun q hlt hq => hrec _ (by omega) hq rfl
    exact
      { expression := expression_follows hl hp ih
        operators := operators_follows hl hp ih
        suffixes := suffixes_follows hl hp ih
        moreElements := moreElements_follows hl hp ih
        moreIndices := moreIndices_follows hl hp ih }

end Descent

end ShapeFault
