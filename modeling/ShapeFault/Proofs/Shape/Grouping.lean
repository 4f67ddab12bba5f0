import ShapeFault.Proofs.Shape.Broadcast
import ShapeFault.Proofs.Shape.Result

/-!
# Broadcasting in any order

Broadcasting is a partial operation on shapes that is commutative, associative and idempotent, and
the shape without axes is its unit. All of this is read off one fact: what two shapes, or three in
either bracketing, are broadcast to is their joint shape (`broadcast?_eq_some_iff_isJoint`,
`broadcast?_bind_left_eq_some_iff`), and which shape is joint depends only on which shapes there are
(`isJoint_congr`), not on their order or on how often one of them is given.

A `Grouping` is any way to broadcast shapes two at a time. It succeeds with the joint shape of the
shapes in it (`Grouping.joint_eq_ok_iff`), so shapes can be grouped and ordered at will
(`broadcasting_is_partial_monoid`).
-/

namespace ShapeFault.Shape

variable {a b c s : Shape} {ss ts : List Shape}

/-! ### The shapes that a joint shape depends on -/

/-- The greatest number of a list, or zero. -/
theorem foldr_max_spec (ns : List Nat) :
    (∀ n ∈ ns, n ≤ ns.foldr max 0) ∧ (ns.foldr max 0 = 0 ∨ ns.foldr max 0 ∈ ns) := by
  induction ns with
  | nil => exact ⟨nofun, Or.inl rfl⟩
  | cons n ns ih =>
    obtain ⟨hle, hmem⟩ := ih
    rw [List.foldr_cons, List.forall_mem_cons]
    refine ⟨⟨Nat.le_max_left _ _, fun m hm => Nat.le_trans (hle m hm) (Nat.le_max_right _ _)⟩, ?_⟩
    rcases Nat.le_total n (ns.foldr max 0) with h | h
    · rw [Nat.max_eq_right h]
      exact hmem.imp_right (List.mem_cons_of_mem n)
    · rw [Nat.max_eq_left h]
      exact Or.inr List.mem_cons_self

theorem eq_foldr_max_iff {ns : List Nat} {n : Nat} :
    n = ns.foldr max 0 ↔ (∀ m ∈ ns, m ≤ n) ∧ (n = 0 ∨ n ∈ ns) := by
  obtain ⟨hle, hmem⟩ := foldr_max_spec ns
  constructor
  · rintro rfl
    exact ⟨hle, hmem⟩
  · rintro ⟨hle', hmem'⟩
    refine Nat.le_antisymm ?_ ?_
    · rcases hmem' with rfl | h
      · exact Nat.zero_le _
      · exact hle n h
    · rcases hmem with h | h
      · rw [h]
        exact Nat.zero_le n
      · exact hle' _ h

/-- A joint shape in terms of the members of the list alone. -/
theorem isJoint_iff_forall_mem : IsJoint ss s ↔
    ((∀ t ∈ ss, t.rank ≤ s.rank) ∧ (s.rank = 0 ∨ ∃ t ∈ ss, t.rank = s.rank)) ∧
      ∀ k, (∀ t ∈ ss, t.sizeFromEnd k = 1 ∨ t.sizeFromEnd k = s.sizeFromEnd k) ∧
        (s.sizeFromEnd k = 1 ∨ ∃ t ∈ ss, t.sizeFromEnd k = s.sizeFromEnd k) := by
  rw [isJoint_iff, eq_foldr_max_iff, List.forall_mem_map, List.mem_map]

/-- **A joint shape depends only on which shapes there are.** -/
theorem isJoint_congr (h : ∀ t, t ∈ ss ↔ t ∈ ts) : IsJoint ss s ↔ IsJoint ts s := by
  simp only [isJoint_iff_forall_mem, h]

/-- Two joint shapes can stand for the shapes that they are joint to. -/
theorem isJoint_append (ha : IsJoint ss a) (hb : IsJoint ts b) :
    IsJoint (ss ++ ts) s ↔ IsJoint [a, b] s := by
  rw [isJoint_iff_forall_mem] at ha hb ⊢
  rw [isJoint_iff_forall_mem]
  obtain ⟨harank, ha⟩ := ha
  obtain ⟨hbrank, hb⟩ := hb
  -- The ranks, and at every position the sizes, are a maximum and a choice over the members. That
  -- of both lists is the one of what it is in each of them.
  refine and_congr ?_ (forall_congr' fun k => ?_)
  · simp only [List.mem_append, List.mem_cons, List.not_mem_nil, or_false]
    grind
  · have hak := ha k
    have hbk := hb k
    simp only [List.mem_append, List.mem_cons, List.not_mem_nil, or_false]
    grind

theorem Joinable.mono (h : Joinable ts) (hsub : ss ⊆ ts) : Joinable ss :=
  fun s hs t ht => h s (hsub hs) t (hsub ht)

/-- The joint shape of two lists of shapes comes from a joint shape of each. -/
theorem isJoint_append_iff : IsJoint (ss ++ ts) s ↔
    ∃ a, IsJoint ss a ∧ ∃ b, IsJoint ts b ∧ IsJoint [a, b] s := by
  constructor
  · intro h
    obtain ⟨a, ha⟩ := exists_isJoint_iff.mpr (h.joinable.mono (List.subset_append_left ss ts))
    obtain ⟨b, hb⟩ := exists_isJoint_iff.mpr (h.joinable.mono (List.subset_append_right ss ts))
    exact ⟨a, ha, b, hb, (isJoint_append ha hb).mp h⟩
  · rintro ⟨a, ha, b, hb, h⟩
    exact (isJoint_append ha hb).mpr h

/-! ### Two and three shapes -/

theorem broadcast?_eq_some_iff_isJoint : broadcast? a b = some s ↔ IsJoint [a, b] s := by
  rw [← foldlM_broadcast?_eq_some_iff]
  simp

theorem broadcast?_bind_left_eq_some_iff :
    ((broadcast? a b).bind (broadcast? · c)) = some s ↔ IsJoint [a, b, c] s := by
  rw [← foldlM_broadcast?_eq_some_iff]
  simp

theorem broadcast?_comm (a b : Shape) : broadcast? a b = broadcast? b a := by
  refine Option.ext fun s => ?_
  rw [broadcast?_eq_some_iff_isJoint, broadcast?_eq_some_iff_isJoint]
  exact isJoint_congr fun _ => (List.Perm.swap b a []).mem_iff

theorem broadcast?_assoc (a b c : Shape) :
    (broadcast? b c).bind (broadcast? a) = (broadcast? a b).bind (broadcast? · c) := by
  have hcomm : (broadcast? b c).bind (broadcast? a) = (broadcast? b c).bind (broadcast? · a) :=
    congrArg _ (funext fun d => broadcast?_comm a d)
  refine Option.ext fun s => ?_
  rw [hcomm, broadcast?_bind_left_eq_some_iff, broadcast?_bind_left_eq_some_iff]
  exact isJoint_congr fun _ => (List.perm_append_singleton a [b, c]).mem_iff

theorem broadcast?_self (a : Shape) : broadcast? a a = some a := by
  rw [broadcast?_eq_some_iff_isJoint]
  exact (isJoint_congr fun t => by simp).mpr (isJoint_singleton a)

/-! ### Results without their errors -/

theorem toOption_broadcast (a b : Shape) : (broadcast a b).toOption = broadcast? a b := by
  rw [broadcast]
  cases broadcast? a b <;> rfl

theorem broadcast_eq_ok_iff : broadcast a b = .ok s ↔ IsJoint [a, b] s := by
  rw [← broadcast?_eq_some_iff_isJoint, broadcast]
  cases broadcast? a b <;> simp

/-! ### Any number of shapes, in any order -/

/-- A way to broadcast shapes two at a time. -/
inductive Grouping where
  | empty
  | single (s : Shape)
  | join (left right : Grouping)
  deriving DecidableEq, Repr

namespace Grouping

/-- The shapes of a grouping, from left to right. -/
def shapes : Grouping → List Shape
  | empty => []
  | single s => [s]
  | join l r => l.shapes ++ r.shapes

/-- What the shapes of a grouping are broadcast to. -/
def joint : Grouping → Except ShapeError Shape
  | empty => .ok []
  | single s => .ok s
  | join l r => do
    let a ← l.joint
    let b ← r.joint
    broadcast a b

/-- **A grouping gives the joint shape** of its shapes, by induction on it. -/
theorem joint_eq_ok_iff {g : Grouping} : g.joint = .ok s ↔ IsJoint g.shapes s := by
  induction g generalizing s with
  | empty =>
    rw [joint, shapes, ← isJoint_nil_cons, Except.ok.injEq]
    exact ⟨fun h => h ▸ isJoint_singleton [], (isJoint_singleton []).eq⟩
  | single t =>
    rw [joint, shapes, Except.ok.injEq]
    exact ⟨fun h => h ▸ isJoint_singleton t, (isJoint_singleton t).eq⟩
  | join l r ihl ihr =>
    simp only [joint, shapes, bind_eq_ok_iff, isJoint_append_iff, ihl, ihr, broadcast_eq_ok_iff]

end Grouping

/-- **Broadcasting is a partial monoid**, commutative and idempotent, whose unit is the shape
without axes; results are compared without their errors, so that two that fail are the same. Hence
what shapes are broadcast to does not depend on their order or grouping, nor on how often one of
them is given, and they can be broadcast exactly if at every position from the end their sizes other
than one are all equal. -/
theorem broadcasting_is_partial_monoid (a b c : Shape) :
    (broadcast a b).toOption = (broadcast b a).toOption ∧
      (broadcast b c >>= fun d => broadcast a d).toOption =
        (broadcast a b >>= fun d => broadcast d c).toOption ∧
      broadcast a a = .ok a ∧ broadcast [] a = .ok a ∧ broadcast a [] = .ok a ∧
      ∀ g : Grouping,
        (∀ g' : Grouping, (∀ s, s ∈ g.shapes ↔ s ∈ g'.shapes) →
          g.joint.toOption = g'.joint.toOption) ∧
        ((∃ s, g.joint = .ok s) ↔ ∀ k, ∀ s ∈ g.shapes, ∀ t ∈ g.shapes,
          s.sizeFromEnd k ≠ 1 → t.sizeFromEnd k ≠ 1 → s.sizeFromEnd k = t.sizeFromEnd k) := by
  refine ⟨?_, ?_, ?_, ?_, ?_, fun g => ⟨fun g' hg => ?_, ?_⟩⟩
  · rw [toOption_broadcast, toOption_broadcast, broadcast?_comm]
  · simp only [toOption_bind, toOption_broadcast]
    exact broadcast?_assoc a b c
  · rw [broadcast, broadcast?_self]
  · rw [broadcast, broadcast?_nil_left]
  · rw [broadcast, broadcast?_nil_right]
  · refine Option.ext fun s => ?_
    rw [toOption_eq_some_iff, toOption_eq_some_iff, Grouping.joint_eq_ok_iff,
      Grouping.joint_eq_ok_iff]
    exact isJoint_congr hg
  · simp only [Grouping.joint_eq_ok_iff, exists_isJoint_iff]
    constructor
    · intro h k s hs t ht hs1 ht1
      exact ((h s hs t ht k).resolve_left hs1).resolve_left ht1
    · intro h s hs t ht k
      by_cases hs1 : s.sizeFromEnd k = 1
      · exact Or.inl hs1
      · by_cases ht1 : t.sizeFromEnd k = 1
        · exact Or.inr (Or.inl ht1)
        · exact Or.inr (Or.inr (h k s hs t ht hs1 ht1))

/-- Three shapes that are broadcast from the left and, in another order, from the right. -/
theorem broadcasting_of_three_in_two_orders :
    (∀ s, s ∈ (((Grouping.single [2, 1]).join (.single [3])).join (.single [4, 1, 1])).shapes ↔
        s ∈ ((Grouping.single [3]).join
          ((Grouping.single [4, 1, 1]).join (.single [2, 1]))).shapes) ∧
      ((Grouping.single [3]).join ((Grouping.single [4, 1, 1]).join (.single [2, 1]))).joint =
        .ok [4, 2, 3] ∧
      (((Grouping.single [2, 1]).join (.single [3])).join (.single [4, 1, 1])).joint.toOption =
        some [4, 2, 3] := by
  have hjoint : ((Grouping.single [3]).join
      ((Grouping.single [4, 1, 1]).join (.single [2, 1]))).joint = .ok [4, 2, 3] :=
    rfl
  have hshapes (s : Shape) :
      s ∈ (((Grouping.single [2, 1]).join (.single [3])).join (.single [4, 1, 1])).shapes ↔
        s ∈ ((Grouping.single [3]).join
          ((Grouping.single [4, 1, 1]).join (.single [2, 1]))).shapes :=
    (List.perm_append_singleton [2, 1] [[3], [4, 1, 1]]).mem_iff.symm
  obtain ⟨-, -, -, -, -, hg⟩ := broadcasting_is_partial_monoid [2, 1] [3] [4, 1, 1]
  refine ⟨hshapes, hjoint, ?_⟩
  rw [(hg _).1 _ hshapes, hjoint]
  rfl

end ShapeFault.Shape
