import ShapeFault.Explain
import ShapeFault.Proofs.Eval.Trap
import ShapeFault.Proofs.Shape.Broadcast
import ShapeFault.Proofs.Tensor.Failure

/-!
# Causes and explanations agree

The cause of a trap is made by the operation that failed, from the shapes that it worked on; the
explanation is made from the operands that were recorded. Here they are compared. An operation that
fails for two shapes fails for those of its operands as they are, although it may have failed on a
part of them only, and both have axes (`FailsFor`); so the explanation describes them both, and an
error that names two shapes names the same ones in the same order
(`causes_and_explanations_agree`).
-/

namespace ShapeFault

/-! ### Products and broadcasting -/

/-- The shapes that the error names, if it names two, are these. -/
def ShapeError.Names (l r : Shape) : ShapeError → Prop
  | notBroadcastable left right | notAligned left right .. => left = l ∧ right = r
  | _ => True

namespace Shape

variable {l r : Shape}

/-- An error about two shapes is about these, and both have axes. -/
def Blames (l r : Shape) (e : ShapeError) : Prop :=
  e.isPair → 0 < l.rank ∧ 0 < r.rank ∧ e.Names l r

theorem failsIn_broadcast_blames (l r : Shape) : FailsIn (Blames l r) (broadcast l r) := by
  intro e h _
  obtain ⟨rfl, hl, hr⟩ := broadcast_eq_error h
  exact ⟨hl, hr, rfl, rfl⟩

theorem leftFactor?_eq_none_iff {s : Shape} : leftFactor? s = none ↔ s.rank = 0 := by
  rw [leftFactor?, rank, ← List.length_reverse]
  split <;> simp_all

theorem rightFactor?_eq_none_iff {s : Shape} : rightFactor? s = none ↔ s.rank = 0 := by
  rw [rightFactor?, rank, ← List.length_reverse]
  split <;> simp_all

/-- A matrix product fails for an operand without axes, or for both operands. -/
theorem matmul_eq_error_cases {e : ShapeError} (h : matmul l r = .error e) :
    (e = .scalarFactor 0 ∧ l.rank = 0) ∨ (e = .scalarFactor 1 ∧ 0 < l.rank ∧ r.rank = 0) ∨
      (0 < l.rank ∧ 0 < r.rank ∧ e.Names l r) := by
  have hpos {s : Shape} {o : Option Factor} {f : Factor} (hs : o = none ↔ s.rank = 0)
      (ho : o = some f) : 0 < s.rank :=
    Nat.pos_of_ne_zero fun h => Option.some_ne_none f (ho.symm.trans (hs.mpr h))
  cases hl : leftFactor? l with
  | none =>
    simp only [matmul, hl] at h
    exact Or.inl ⟨(Except.error.inj h).symm, leftFactor?_eq_none_iff.mp hl⟩
  | some f =>
    have hlpos := hpos leftFactor?_eq_none_iff hl
    cases hr : rightFactor? r with
    | none =>
      simp only [matmul, hl, hr] at h
      exact Or.inr (Or.inl
        ⟨(Except.error.inj h).symm, hlpos, rightFactor?_eq_none_iff.mp hr⟩)
    | some g =>
      -- batches that cannot be broadcast are reported with the whole operands
      refine Or.inr (Or.inr ⟨hlpos, hpos rightFactor?_eq_none_iff hr, ?_⟩)
      simp only [matmul, hl, hr] at h
      split at h
      · exact Except.error.inj h ▸ trivial
      · split at h
        · cases h
        · exact Except.error.inj h ▸ ⟨rfl, rfl⟩

theorem failsIn_matmul_blames (l r : Shape) : FailsIn (Blames l r) (matmul l r) := by
  intro e h he
  rcases matmul_eq_error_cases h with ⟨rfl, -⟩ | ⟨rfl, -⟩ | hblames
  · cases he
  · cases he
  · exact hblames

/-- A dot product fails for both operands. -/
theorem failsIn_dot_blames (l r : Shape) : FailsIn (Blames l r) (dot l r) := by
  have hpos {s : Shape} {i n : Nat} (h : s[i]? = some n) : 0 < s.rank :=
    Nat.lt_of_le_of_lt (Nat.zero_le i) (List.getElem?_eq_some_iff.mp h).1
  cases hl : l[l.rank - 1]? with
  | none =>
    simp only [dot, hl]
    exact .ok _
  | some m =>
    cases hr : r[r.rank - 2]? with
    | none =>
      simp only [dot, hl, hr]
      exact .ok _
    | some n =>
      simp only [dot, hl, hr]
      exact .ite (.ok _) (.error fun _ => ⟨hpos hl, hpos hr, rfl, rfl⟩)

end Shape

/-! ### Operators -/

namespace Value

theorem eq_tensor_of_broadcastShape? {v : Value} {s : Shape} (h : v.broadcastShape? = some s)
    (hs : 0 < s.rank) : v = .tensor s := by
  cases v <;> cases h <;> first | rfl | cases hs

/-- A number has no axes, so it can be broadcast with every tensor. -/
theorem plainBinary_eq_error {op : BinaryOp} {v w : Value} {c : HostError}
    (h : plainBinary op v w = .error c) (hc : c.isShapeClass) :
    ∃ l r e, v = .tensor l ∧ w = .tensor r ∧ c = .shape e ∧ l.broadcast r = .error e := by
  unfold plainBinary at h
  split at h
  · split at h
    · next l r hv hw =>
      obtain ⟨e, rfl, he⟩ := ofShape_eq_error h
      obtain ⟨-, hl, hr⟩ := Shape.broadcast_eq_error he
      exact ⟨l, r, e, eq_tensor_of_broadcastShape? hv hl, eq_tensor_of_broadcastShape? hw hr, rfl,
        he⟩
    · cases h
      cases hc
  · split at h
    · exact absurd hc (HostError.not_isShapeClass_of_isPlain (failsIn_compare _ _ _ _ c h))
    · exact absurd hc (HostError.not_isShapeClass_of_isPlain (failsIn_combine _ _ _ c h))

/-- **A binary operator fails for shapes** of two tensors, either as a matrix product or because
these cannot be broadcast. -/
theorem binary_eq_error {op : BinaryOp} {v w : Value} {c : HostError}
    (h : v.binary op w = .error c) (hc : c.isShapeClass) :
    op ≠ .and ∧ op ≠ .or ∧ ∃ l r e, v = .tensor l ∧ w = .tensor r ∧ c = .shape e ∧
      (op = .matmul ∧ l.matmul r = .error e ∨ op ≠ .matmul ∧ l.broadcast r = .error e) := by
  unfold binary at h
  split at h
  · exact absurd hc (HostError.not_isShapeClass_of_isPlain (failsIn_choice v _ c h))
  · exact absurd hc (HostError.not_isShapeClass_of_isPlain (failsIn_choice v _ c h))
  · split at h
    · obtain ⟨e, rfl, he⟩ := ofShape_eq_error h
      exact ⟨nofun, nofun, _, _, e, rfl, rfl, rfl, Or.inl ⟨rfl, he⟩⟩
    · cases h
      cases hc
  · next hand hor hmatmul =>
    obtain ⟨l, r, e, hv, hw, rfl, he⟩ := plainBinary_eq_error h hc
    exact ⟨hand, hor, l, r, e, hv, hw, rfl, Or.inr ⟨hmatmul, he⟩⟩

end Value

/-! ### Calls -/

/-- A product fails for the shapes of its two arguments. -/
theorem Builtin.product_eq_error {f : Builtin} {v w : Value} {e : ShapeError}
    (h : f.product v w = .error (.shape e)) :
    ∃ l r, v = .tensor l ∧ w = .tensor r ∧ Shape.Blames l r e := by
  cases v with
  | tensor l =>
    cases w with
    | tensor r =>
      obtain ⟨_, ⟨⟩, hproduct⟩ := Value.ofShape_eq_error h
      refine ⟨l, r, rfl, rfl, ?_⟩
      exact FailsIn.ite (Shape.failsIn_dot_blames l r) (Shape.failsIn_matmul_blames l r) e hproduct
    | _ => cases h
  | _ => cases h

/-- **A call fails for two shapes** only if it is a product of tensors of these shapes. -/
theorem Value.call_eq_error {f : Value} {args : List Value} {e : ShapeError}
    (h : f.call args = .error (.shape e)) (he : e.isPair) :
    ∃ g l r, (g = .matmul ∨ g = .dot) ∧ f = .function g ∧ args = [.tensor l, .tensor r] ∧
      Shape.Blames l r e := by
  cases f with
  | function g =>
    by_cases hg : g = .matmul ∨ g = .dot
    · have hproduct : ∃ v w, args = [v, w] ∧ g.product v w = .error (.shape e) := by
        match args with
        | [v, w] => rcases hg with rfl | rfl <;> exact ⟨v, w, rfl, h⟩
        | [] | [_] | _ :: _ :: _ :: _ => rcases hg with rfl | rfl <;> cases h
      obtain ⟨v, w, rfl, hproduct⟩ := hproduct
      obtain ⟨l, r, rfl, rfl, hblames⟩ := Builtin.product_eq_error hproduct
      exact ⟨g, l, r, hg, rfl, rfl, hblames⟩
    · rw [not_or] at hg
      have hfails := g.failsIn_call ShapeError.ofPairs_isPair hg.1 hg.2
        (fun _ => Bool.false_ne_true) args
      exact absurd he (hfails _ h e rfl)
  | method s m => exact absurd he (m.failsIn_call ShapeError.ofPairs_isPair s args _ h e rfl)
  | _ => cases h

/-! ### Traps -/

/-- The trap is one of two tensors of shapes `l` and `r`, which are the operands of an operator or
the arguments of a product, and `text` says so. -/
inductive Trap.Combines (l r : Shape) : Trap Value HostError → String → Prop where
  | operator {op : BinaryOp} {a b : Node} {c : HostError} :
      Combines l r ⟨.binary op a b, .binary (.tensor l) (.tensor r), c⟩
        ("Cause: " ++ (Node.binary op a b).source ++
          " on left operand " ++ a.source ++ " w/shape " ++ l.text ++
          " and right operand " ++ b.source ++ " w/shape " ++ r.text)
  | product {f a b : Node} {g : Builtin} {c : HostError} (hg : g = .matmul ∨ g = .dot) :
      Combines l r ⟨.call f [a, b], .call (.function g) [.tensor l, .tensor r], c⟩
        ("Cause: " ++ (Node.call f [a, b]).source ++
          " with argument #0 " ++ a.source ++ " w/shape " ++ l.text ++
          ", argument #1 " ++ b.source ++ " w/shape " ++ r.text)

namespace Explain

theorem describe?_of_pos {s : Shape} (hs : 0 < s.rank) (place node : String) :
    describe? place node (some s) = some (place ++ " " ++ node ++ " w/shape " ++ s.text) := by
  cases s with
  | nil => cases hs
  | cons n s => rfl

theorem compose_subjects (node : Node) (d d' : String) :
    compose node [d, d'] " and " [] =
      some ("Cause: " ++ node.source ++ " on " ++ d ++ " and " ++ d') := by
  simp [compose, clause, String.intercalate_cons_cons, String.append_assoc]

theorem compose_companions (node : Node) (d d' : String) :
    compose node [] "" [d, d'] =
      some ("Cause: " ++ node.source ++ " with " ++ d ++ ", " ++ d') := by
  simp [compose, clause, String.intercalate_cons_cons, String.append_assoc]

end Explain

/-- Two tensors with axes are both described. -/
theorem Trap.Combines.explain_eq {l r : Shape} {t : Trap Value HostError} {text : String}
    (h : t.Combines l r text) (hl : 0 < l.rank) (hr : 0 < r.rank) :
    t.explain Value.shape? = some text := by
  have hplace {x y z : String} (h : x ++ y ++ " " = z) (s : String) :
      x ++ (y ++ (" " ++ s)) = z ++ s := by
    rw [← String.append_assoc, ← String.append_assoc, h]
  cases h with
  | operator =>
    have hleft := @hplace " on " "left operand" " on left operand " rfl
    have hright := @hplace " and " "right operand" " and right operand " rfl
    simp only [Trap.explain, explainOperands, Value.shape?, Explain.describe?_of_pos hl,
      Explain.describe?_of_pos hr, Option.toList_some, List.singleton_append,
      Explain.compose_subjects, String.append_assoc, hleft, hright]
  | @product f a b g c hg =>
    have hfirst := @hplace " with " ("argument" ++ " #" ++ Nat.repr 0) " with argument #0 " rfl
    have hsecond := @hplace ", " ("argument" ++ " #" ++ Nat.repr 1) ", argument #1 " rfl
    have hexplain : Trap.explain Value.shape?
        ⟨.call f [a, b], .call (.function g) [.tensor l, .tensor r], c⟩ =
          Explain.compose (.call f [a, b]) [] "" (Explain.describeAll "argument" 0
            [(a.source, some l), (b.source, some r)]) := rfl
    rw [hexplain]
    simp only [Explain.describeAll, Explain.describe?_of_pos hl, Explain.describe?_of_pos hr,
      Option.toList_some, List.singleton_append, Explain.compose_companions, Nat.zero_add]
    simp only [String.append_assoc] at hfirst hsecond ⊢
    rw [hfirst, hsecond]

/-- An operator with a tensor that has axes is explained. -/
theorem rank_eq_zero_of_explainOperands {op : BinaryOp} {a b : Node} {l r : Shape}
    (h : explainOperands Value.shape? (.binary op a b) (.binary (.tensor l) (.tensor r)) = none) :
    l.rank = 0 ∧ r.rank = 0 := by
  cases l <;> cases r <;> simp_all [explainOperands, Value.shape?, Explain.describe?,
    Explain.compose, Shape.rank]

/-- **Causes and explanations agree.** No trap is at a unary operator. A trap at a binary operator
is neither at `and` nor at `or`, and both operands are tensors; it has no explanation only for a
matrix product of two tensors without axes. If the cause is that two factors do not fit, or, other
than at an index, that two shapes cannot be broadcast, then the operands are two tensors that both
have axes, the explanation describes them both, and the shapes that the cause names are these. -/
theorem causes_and_explanations_agree {env : Environment} {e : Node} {t : Trap Value HostError}
    (h : e.eval (tensorWorld env) = .error (.trap t)) :
    (∀ op a, t.node ≠ .unary op a) ∧
    (∀ op a b, t.node = .binary op a b → op ≠ .and ∧ op ≠ .or ∧
      ∃ l r, t.operands = .binary (.tensor l) (.tensor r) ∧
        (t.explain Value.shape? = none → op = .matmul ∧ l.rank = 0 ∧ r.rank = 0)) ∧
    ∀ error, t.cause = .shape error →
      (error.isProduct ∨ error.isPair ∧ ∀ a is, t.node ≠ .index a is) →
        ∃ l r text, t.Combines l r text ∧ 0 < l.rank ∧ 0 < r.rank ∧ error.Names l r ∧
          t.explain Value.shape? = some text := by
  obtain ⟨-, o, ho, hfail, hclass⟩ := Node.evaluates_of_eval_eq_trap h
  obtain ⟨node, operands, cause⟩ := t
  have hpair {error : ShapeError} {p : Prop} (h : error.isProduct ∨ error.isPair ∧ p) :
      error.isPair :=
    h.elim ShapeError.isPair_of_isProduct And.left
  cases ho with
  | unary =>
    exact absurd hclass (HostError.not_isShapeClass_of_isPlain (Value.failsIn_unary _ _ _ hfail))
  | @binary op a b v w ha hb =>
    obtain ⟨hand, hor, l, r, error, rfl, rfl, rfl, hop⟩ := Value.binary_eq_error hfail hclass
    refine ⟨nofun, ?_, ?_⟩
    · rintro _ _ _ ⟨⟩
      refine ⟨hand, hor, l, r, rfl, fun hnone => ?_⟩
      have hranks := rank_eq_zero_of_explainOperands hnone
      rcases hop with ⟨rfl, -⟩ | ⟨-, hbroadcast⟩
      · exact ⟨rfl, hranks⟩
      · have hl := (Shape.broadcast_eq_error hbroadcast).2.1
        omega
    · rintro _ ⟨⟩ hcause
      have hblames : Shape.Blames l r error := by
        rcases hop with ⟨-, hmatmul⟩ | ⟨-, hbroadcast⟩
        · exact Shape.failsIn_matmul_blames l r error hmatmul
        · exact Shape.failsIn_broadcast_blames l r error hbroadcast
      obtain ⟨hl, hr, hnames⟩ := hblames (hpair hcause)
      exact ⟨l, r, _, .operator, hl, hr, hnames, Trap.Combines.operator.explain_eq hl hr⟩
  | @call f as v vs hf has =>
    refine ⟨nofun, nofun, ?_⟩
    rintro error rfl hcause
    obtain ⟨g, l, r, hg, rfl, rfl, hblames⟩ := Value.call_eq_error hfail (hpair hcause)
    obtain ⟨hl, hr, hnames⟩ := hblames (hpair hcause)
    match as, has with
    | [a, b], .cons _ (.cons _ .nil) =>
      exact ⟨l, r, _, .product hg, hl, hr, hnames, (Trap.Combines.product hg).explain_eq hl hr⟩
  | @index a is v vs ha his =>
    refine ⟨nofun, nofun, ?_⟩
    rintro error rfl (hproduct | ⟨-, hindex⟩)
    · exact absurd hproduct (v.failsIn_index vs _ hfail error rfl)
    · exact absurd rfl (hindex a is)

/-- Two batches of matrices. The matrices can be multiplied, but there are two on the left and five
on the right. -/
def unequalBatches : Environment :=
  (Environment.prelude.bind "x" (.tensor [2, 3, 4])).bind "w" (.tensor [5, 4, 6])

/-- The trap of `np.matmul(x, w)`. Only the batches cannot be broadcast, but cause and explanation
show the whole shapes. -/
theorem explanation_of_unequal_batches :
    ∃ t text, (Node.call (.member (.name "np") "matmul") [.name "x", .name "w"]).eval
        (tensorWorld unequalBatches) = .error (.trap t) ∧
      t.cause = .shape (.notBroadcastable [2, 3, 4] [5, 4, 6]) ∧
      t.Combines [2, 3, 4] [5, 4, 6] text ∧ t.explain Value.shape? = some text := by
  have htrap : (Node.call (.member (.name "np") "matmul") [.name "x", .name "w"]).eval
      (tensorWorld unequalBatches) = .error (.trap
        ⟨.call (.member (.name "np") "matmul") [.name "x", .name "w"],
          .call (.function .matmul) [.tensor [2, 3, 4], .tensor [5, 4, 6]],
          .shape (.notBroadcastable [2, 3, 4] [5, 4, 6])⟩) := rfl
  obtain ⟨l, r, text, hcombines, -, -, ⟨rfl, rfl⟩, hexplain⟩ :=
    (causes_and_explanations_agree htrap).2.2 _ rfl (Or.inr ⟨rfl, nofun⟩)
  exact ⟨_, text, htrap, rfl, hcombines, hexplain⟩

end ShapeFault
