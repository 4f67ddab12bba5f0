import Mathlib.Data.List.Forall2
import ShapeFault.Proofs.Tensor.Integers

/-!
# Equality of lists

Two values that are no tensors can always be compared for equality, in one of two ways. Numbers are
compared as numbers, so a truth value equals the integer that it counts as; all other values, and
with them what lists hold, are compared by form (`Value.equals`). For plain values, those without
floats, having one form is being the same value (`Value.Plain.same_iff`).

So two lists are equal exactly if their members are equal at each position and have one type
(`list_equality_is_elementwise_within_types`). The types matter: members that are equal as numbers
do not make equal lists if one of them is a truth value (`list_equality_is_not_elementwise`).
-/

namespace ShapeFault

namespace Value

/-- Values without floats: integers, truth values, strings, `None`, and lists of such values. -/
inductive Plain : Value → Prop where
  | int (n : Int) : Plain (.int n)
  | bool (b : Bool) : Plain (.bool b)
  | str (s : String) : Plain (.str s)
  | none : Plain .none
  | list {vs : List Value} (members : ∀ v ∈ vs, Plain v) : Plain (.list vs)

variable {v w : Value} {vs ws : List Value}

/-! ### Equality of form -/

/-- Lists have the same members if having one form says so of the first ones. -/
theorem sameList_iff (h : ∀ v ∈ vs, ∀ w, v.same w = true ↔ v = w) :
    sameList vs ws = true ↔ vs = ws := by
  induction vs generalizing ws with
  | nil => cases ws <;> simp [sameList]
  | cons v vs ih =>
    obtain ⟨hv, hvs⟩ := List.forall_mem_cons.mp h
    cases ws with
    | nil => simp [sameList]
    | cons w ws => simp only [sameList, Bool.and_eq_true, hv w, ih hvs, List.cons.injEq]

/-- **Plain values of one form are the same.** -/
theorem Plain.same_iff (hv : v.Plain) : v.same w = true ↔ v = w := by
  induction hv generalizing w with
  | int | bool | str | none => cases w <;> simp [same]
  | list _ ih =>
    cases w with
    | list ws => rw [same, sameList_iff fun v hv w => ih v hv, list.injEq]
    | _ => simp [same]

/-! ### Equality as an operation -/

/-- Whether two values that are no tensors count as equal: as numbers if both are, and by form
otherwise. -/
def equals (v w : Value) : Bool :=
  match Number.ofValue? v, Number.ofValue? w with
  | some x, some y => x.compare .eq y
  | _, _ => v.same w

/-- Comparisons of values that are no tensors. -/
theorem plainBinary_of_comparison? {op : BinaryOp} {c : Comparison} (hc : op.comparison? = some c)
    (hv : v.isTensor = false) (hw : w.isTensor = false) :
    plainBinary op v w = compare op c v w := by
  rw [plainBinary, hv, hw, hc]
  rfl

theorem compare_eq (op : BinaryOp) (v w : Value) :
    compare op .eq v w = .ok (.bool (v.equals w)) := by
  unfold compare equals
  cases Number.ofValue? v <;> cases Number.ofValue? w <;> rfl

theorem compare_ne (op : BinaryOp) (v w : Value) :
    compare op .ne v w = .ok (.bool !(v.equals w)) := by
  unfold compare equals
  cases Number.ofValue? v with
  | none => rfl
  | some x =>
    cases Number.ofValue? w with
    | none => rfl
    | some y => cases x <;> cases y <;> rfl

theorem binary_eq (hv : v.isTensor = false) (hw : w.isTensor = false) :
    tensorHost (.binary .eq v w) = .ok (.bool (v.equals w)) :=
  (plainBinary_of_comparison? rfl hv hw).trans (compare_eq .eq v w)

theorem binary_ne (hv : v.isTensor = false) (hw : w.isTensor = false) :
    tensorHost (.binary .ne v w) = .ok (.bool !(v.equals w)) :=
  (plainBinary_of_comparison? rfl hv hw).trans (compare_ne .ne v w)

/-! ### Equality of plain values -/

theorem CountsAs.eq {m n : Int} (hm : v.CountsAs m) (hn : v.CountsAs n) : m = n := by
  have heq := hm.ofValue?.symm.trans hn.ofValue?
  cases heq
  rfl

/-- Values of one type that count as the same integer are the same. -/
theorem CountsAs.eq_of_typeName_eq {n : Int} (hv : v.CountsAs n) (hw : w.CountsAs n)
    (htype : v.typeName = w.typeName) : v = w := by
  cases hv with
  | int =>
    cases hw with
    | int => rfl
    | bool => cases htype
  | bool b =>
    generalize hn : b.toInt = n at hw
    cases hw with
    | int => cases htype
    | bool c =>
      have hinj : ∀ b c : Bool, b.toInt = c.toInt → b = c := by decide
      rw [hinj b c hn]

/-- A plain value counts as an integer or is no number. -/
theorem Plain.countsAs_or (hv : v.Plain) :
    (∃ n, v.CountsAs n) ∨ Number.ofValue? v = Option.none := by
  cases hv with
  | int n => exact Or.inl ⟨n, .int n⟩
  | bool b => exact Or.inl ⟨_, .bool b⟩
  | str | none | list => exact Or.inr rfl

theorem Plain.isTensor_eq_false (hv : v.Plain) : v.isTensor = false := by
  cases hv <;> rfl

/-- **Plain values are equal** if they are the same or count as the same integer. -/
theorem Plain.equals_iff (hv : v.Plain) (hw : w.Plain) :
    v.equals w = true ↔ v = w ∨ ∃ n, v.CountsAs n ∧ w.CountsAs n := by
  have hform : (Number.ofValue? v = Option.none ∨ Number.ofValue? w = Option.none) →
      (v.equals w = true ↔ v = w ∨ ∃ n, v.CountsAs n ∧ w.CountsAs n) := by
    intro hnone
    have hequals : v.equals w = v.same w := by
      unfold equals
      rcases hnone with h | h <;> rw [h]
      cases Number.ofValue? v <;> rfl
    have hcounts : ¬∃ n, v.CountsAs n ∧ w.CountsAs n := by
      rintro ⟨n, hvn, hwn⟩
      rw [hvn.ofValue?, hwn.ofValue?] at hnone
      rcases hnone with h | h <;> cases h
    rw [hequals, hv.same_iff, or_iff_left hcounts]
  rcases hv.countsAs_or with ⟨l, hvl⟩ | h
  · rcases hw.countsAs_or with ⟨r, hwr⟩ | h
    · have hequals : v.equals w = (l == r) := by
        rw [equals, hvl.ofValue?, hwr.ofValue?]
        rfl
      rw [hequals, beq_iff_eq]
      constructor
      · rintro rfl
        exact Or.inr ⟨l, hvl, hwr⟩
      · rintro (rfl | ⟨n, hvn, hwn⟩)
        · exact hvl.eq hwr
        · rw [hvl.eq hvn, hwr.eq hwn]
    · exact hform (Or.inr h)
  · exact hform (Or.inl h)

/-- Equal plain values of one type are the same. -/
theorem Plain.equals_and_typeName_iff (hv : v.Plain) (hw : w.Plain) :
    v.equals w = true ∧ v.typeName = w.typeName ↔ v = w := by
  rw [hv.equals_iff hw]
  constructor
  · rintro ⟨rfl | ⟨n, hvn, hwn⟩, htype⟩
    · rfl
    · exact hvn.eq_of_typeName_eq hwn htype
  · rintro rfl
    exact ⟨Or.inl rfl, rfl⟩

end Value

/-- Lists related position by position by what is equality for their members are equal. -/
theorem forall₂_iff_eq {α : Type} {R : α → α → Prop} {xs ys : List α}
    (h : ∀ x ∈ xs, ∀ y ∈ ys, R x y ↔ x = y) : List.Forall₂ R xs ys ↔ xs = ys := by
  induction xs generalizing ys with
  | nil => cases ys <;> simp
  | cons x xs ih =>
    cases ys with
    | nil => simp
    | cons y ys =>
      have htail := ih fun a ha b hb =>
        h a (List.mem_cons_of_mem x ha) b (List.mem_cons_of_mem y hb)
      rw [List.forall₂_cons, h x List.mem_cons_self y List.mem_cons_self, htail, List.cons.injEq]

/-- **Lists are equal if their members are, within types.** Two lists of plain values are equal
exactly if they have one length and at each position members that are equal and have one type, which
is to say that they are the same list; inequality is the opposite. Two plain values are equal if
they are the same, or count as the same integer: the types differ just where a truth value meets the
integer that it counts as. -/
theorem list_equality_is_elementwise_within_types {vs ws : List Value}
    (hvs : ∀ v ∈ vs, v.Plain) (hws : ∀ w ∈ ws, w.Plain) :
    ∃ b : Bool,
      tensorHost (.binary .eq (.list vs) (.list ws)) = .ok (.bool b) ∧
      tensorHost (.binary .ne (.list vs) (.list ws)) = .ok (.bool !b) ∧
      (b = true ↔ List.Forall₂ (fun v w => tensorHost (.binary .eq v w) = .ok (.bool true) ∧
        v.typeName = w.typeName) vs ws) ∧
      (b = true ↔ vs = ws) ∧
      ∀ v ∈ vs, ∀ w ∈ ws, tensorHost (.binary .eq v w) = .ok (.bool true) ↔
        v = w ∨ ∃ n, v.CountsAs n ∧ w.CountsAs n := by
  have hequal : ∀ v ∈ vs, ∀ w ∈ ws, tensorHost (.binary .eq v w) = .ok (.bool true) ↔
      v.equals w = true := by
    intro v hv w hw
    rw [Value.binary_eq (hvs v hv).isTensor_eq_false (hws w hw).isTensor_eq_false]
    simp
  have hlists : (Value.list vs).equals (.list ws) = true ↔ vs = ws := by
    have hform := (Value.Plain.list hvs).same_iff (w := .list ws)
    rwa [Value.list.injEq] at hform
  refine ⟨(Value.list vs).equals (.list ws), Value.binary_eq rfl rfl, Value.binary_ne rfl rfl, ?_,
    hlists, fun v hv w hw => (hequal v hv w hw).trans ((hvs v hv).equals_iff (hws w hw))⟩
  rw [hlists, forall₂_iff_eq]
  intro v hv w hw
  rw [hequal v hv w hw]
  exact (hvs v hv).equals_and_typeName_iff (hws w hw)

/-- Two lists with equal members, of which the second ones are of two types. -/
theorem equality_of_lists_with_one_and_true :
    (∀ v ∈ [Value.list [.bool true], .int 1], v.Plain) ∧
      (∀ w ∈ [Value.list [.bool true], .bool true], w.Plain) ∧
      tensorHost (.binary .eq (.list [.list [.bool true], .int 1])
        (.list [.list [.bool true], .bool true])) = .ok (.bool false) ∧
      tensorHost (.binary .ne (.list [.list [.bool true], .int 1])
        (.list [.list [.bool true], .bool true])) = .ok (.bool true) ∧
      tensorHost (.binary .eq (.int 1) (.bool true)) = .ok (.bool true) := by
  have hinner : (Value.list [.bool true]).Plain :=
    .list (List.forall_mem_singleton.mpr (.bool true))
  have hvs : ∀ v ∈ [Value.list [.bool true], .int 1], v.Plain :=
    List.forall_mem_cons.mpr ⟨hinner, List.forall_mem_singleton.mpr (.int 1)⟩
  have hws : ∀ w ∈ [Value.list [.bool true], .bool true], w.Plain :=
    List.forall_mem_cons.mpr ⟨hinner, List.forall_mem_singleton.mpr (.bool true)⟩
  obtain ⟨b, heq, hne, -, hsame, hmembers⟩ := list_equality_is_elementwise_within_types hvs hws
  obtain rfl : b = false := by
    rw [Bool.eq_false_iff, Ne, hsame]
    intro h
    cases h
  exact ⟨hvs, hws, heq, hne,
    (hmembers _ (by simp) _ (by simp)).mpr (Or.inr ⟨1, .int 1, .bool true⟩)⟩

/-- **Equality of lists is not elementwise.** The integer 1 equals `True`, but the list of the one
is not equal to the list of the other. -/
theorem list_equality_is_not_elementwise :
    ¬∀ vs ws : List Value, (∀ v ∈ vs, v.Plain) → (∀ w ∈ ws, w.Plain) →
      (tensorHost (.binary .eq (.list vs) (.list ws)) = .ok (.bool true) ↔
        List.Forall₂ (fun v w => tensorHost (.binary .eq v w) = .ok (.bool true)) vs ws) := by
  intro h
  have hmembers : List.Forall₂ (fun v w => tensorHost (.binary .eq v w) = .ok (.bool true))
      [Value.int 1] [.bool true] := .cons rfl .nil
  have hlists := (h [.int 1] [.bool true] (List.forall_mem_singleton.mpr (.int 1))
    (List.forall_mem_singleton.mpr (.bool true))).mpr hmembers
  have hdiffer : tensorHost (.binary .eq (.list [.int 1]) (.list [.bool true])) =
      .ok (.bool false) := rfl
  cases hdiffer.symm.trans hlists

end ShapeFault
