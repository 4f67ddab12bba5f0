import Mathlib.Data.List.GetD
import ShapeFault.Shape.Broadcast

/-!
# Joint shapes

Broadcasting goes through two shapes from their last axes on. Position by position it can be told
without that: `Shape.sizeFromEnd` gives the size of an axis counted from the last, which is one
where there is no axis, and two shapes have a common shape exactly if at every position their sizes
agree or one of them is one (`broadcast?_eq_some_iff`).

The same is said of any number of shapes by `IsJoint`. Shapes that are joined one after the other
have the joint shape of them all, in whatever order (`foldlM_broadcast?_eq_some_iff`), and there is
one exactly if any two of them agree (`exists_isJoint_iff`).
-/

namespace ShapeFault.Shape

/-! ### Two shapes -/

/-- The size of the axis at a position counted from the last, or one where there is no axis. -/
def sizeFromEnd (s : Shape) (k : Nat) : Nat :=
  s.reverse.getD k 1

@[simp] theorem sizeFromEnd_nil (k : Nat) : sizeFromEnd [] k = 1 :=
  rfl

theorem joinSizes_eq_some_iff {m n k : Nat} :
    joinSizes m n = some k ↔ (m = 1 ∨ m = k) ∧ (n = 1 ∨ n = k) ∧ (k = m ∨ k = n) := by
  unfold joinSizes
  split
  · rw [Option.some.injEq]
    omega
  · split
    · rw [Option.some.injEq]
      omega
    · split
      · rw [Option.some.injEq]
        omega
      · simp only [reduceCtorEq, false_iff]
        omega

theorem exists_joinSizes_iff {m n : Nat} :
    (∃ k, joinSizes m n = some k) ↔ m = 1 ∨ n = 1 ∨ m = n := by
  simp only [joinSizes_eq_some_iff]
  constructor
  · rintro ⟨k, hk⟩
    omega
  · rintro (rfl | rfl | rfl)
    · exact ⟨n, by omega⟩
    · exact ⟨m, by omega⟩
    · exact ⟨m, by omega⟩

theorem joinSizes_one_left (n : Nat) : joinSizes 1 n = some n :=
  joinSizes_eq_some_iff.mpr (by omega)

theorem joinSizes_one_right (m : Nat) : joinSizes m 1 = some m :=
  joinSizes_eq_some_iff.mpr (by omega)

/-- Lists of sizes are the same if they have the same length and the same sizes. -/
theorem eq_of_getD_eq {ms ns : List Nat} (hlength : ms.length = ns.length)
    (h : ∀ k, ms.getD k 1 = ns.getD k 1) : ms = ns := by
  refine List.ext_getElem hlength fun k hm hn => ?_
  have hk := h k
  rwa [List.getD_eq_getElem _ _ hm, List.getD_eq_getElem _ _ hn] at hk

theorem joinReversed_eq_some_iff {ms ns ks : List Nat} : joinReversed ms ns = some ks ↔
    ks.length = max ms.length ns.length ∧
      ∀ k, joinSizes (ms.getD k 1) (ns.getD k 1) = some (ks.getD k 1) := by
  fun_induction joinReversed ms ns generalizing ks with
  | case1 ns =>
    simp only [List.getD_nil, joinSizes_one_left, Option.some.injEq, List.length_nil, Nat.zero_max]
    exact ⟨fun h => h ▸ ⟨rfl, fun _ => rfl⟩, fun h => eq_of_getD_eq h.1.symm h.2⟩
  | case2 ms =>
    simp only [List.getD_nil, joinSizes_one_right, Option.some.injEq, List.length_nil, Nat.max_zero]
    exact ⟨fun h => h ▸ ⟨rfl, fun _ => rfl⟩, fun h => eq_of_getD_eq h.1.symm h.2⟩
  | case3 m ms n ns ih =>
    simp only [Option.bind_eq_bind, Option.bind_eq_some_iff, ih, Option.some.injEq,
      List.length_cons]
    rw [← Nat.and_forall_add_one]
    constructor
    · rintro ⟨k, hk, ks, ⟨hlength, hks⟩, rfl⟩
      refine ⟨?_, hk, hks⟩
      rw [List.length_cons, hlength]
      omega
    · rintro ⟨hlength, hk, hks⟩
      cases ks with
      | nil =>
        simp only [List.length_nil] at hlength
        omega
      | cons k ks =>
        refine ⟨k, hk, ks, ⟨?_, hks⟩, rfl⟩
        rw [List.length_cons] at hlength
        omega

/-- Lists of sizes have common sizes if at every position two sizes are compatible. -/
theorem exists_joinReversed_iff {ms ns : List Nat} : (∃ ks, joinReversed ms ns = some ks) ↔
    ∀ k, ms.getD k 1 = 1 ∨ ns.getD k 1 = 1 ∨ ms.getD k 1 = ns.getD k 1 := by
  constructor
  · rintro ⟨ks, hks⟩ k
    exact exists_joinSizes_iff.mp ⟨_, (joinReversed_eq_some_iff.mp hks).2 k⟩
  · intro h
    fun_induction joinReversed ms ns with
    | case1 ns => exact ⟨ns, rfl⟩
    | case2 ms => exact ⟨ms, rfl⟩
    | case3 m ms n ns ih =>
      obtain ⟨k, hk⟩ := exists_joinSizes_iff.mpr (h 0)
      obtain ⟨ks, hks⟩ := ih fun k => h (k + 1)
      refine ⟨k :: ks, ?_⟩
      rw [Option.bind_eq_bind, Option.bind_eq_some_iff]
      exact ⟨k, hk, Option.bind_eq_some_iff.mpr ⟨ks, hks, rfl⟩⟩

/-- **The common shape of two shapes** has as many axes as the longer one and at every position the
common size. -/
theorem broadcast?_eq_some_iff {l r s : Shape} : broadcast? l r = some s ↔
    s.rank = max l.rank r.rank ∧
      ∀ k, joinSizes (l.sizeFromEnd k) (r.sizeFromEnd k) = some (s.sizeFromEnd k) := by
  have hmap : broadcast? l r = some s ↔ joinReversed l.reverse r.reverse = some s.reverse := by
    rw [broadcast?, Option.map_eq_some_iff]
    constructor
    · rintro ⟨ks, hks, rfl⟩
      rwa [List.reverse_reverse]
    · intro h
      exact ⟨_, h, List.reverse_reverse s⟩
  rw [hmap, joinReversed_eq_some_iff, List.length_reverse, List.length_reverse,
    List.length_reverse]
  rfl

/-- **When two shapes have a common shape**: at every position their sizes agree or one is one. -/
theorem exists_broadcast?_iff {l r : Shape} : (∃ s, broadcast? l r = some s) ↔
    ∀ k, l.sizeFromEnd k = 1 ∨ r.sizeFromEnd k = 1 ∨ l.sizeFromEnd k = r.sizeFromEnd k := by
  refine Iff.trans ?_ exists_joinReversed_iff
  constructor
  · rintro ⟨s, hs⟩
    obtain ⟨ks, hks, -⟩ := Option.map_eq_some_iff.mp hs
    exact ⟨ks, hks⟩
  · rintro ⟨ks, hks⟩
    exact ⟨_, Option.map_eq_some_iff.mpr ⟨ks, hks, rfl⟩⟩

/-- A shape without axes leaves the other shape as it is. -/
theorem broadcast?_nil_left (s : Shape) : broadcast? [] s = some s :=
  broadcast?_eq_some_iff.mpr ⟨(Nat.zero_max _).symm, fun _ => joinSizes_one_left _⟩

theorem broadcast?_nil_right (s : Shape) : broadcast? s [] = some s :=
  broadcast?_eq_some_iff.mpr ⟨(Nat.max_zero _).symm, fun _ => joinSizes_one_right _⟩

/-- Two shapes without a common shape both have axes. -/
theorem rank_pos_of_broadcast?_eq_none {l r : Shape} (h : broadcast? l r = none) :
    0 < l.rank ∧ 0 < r.rank := by
  refine ⟨List.length_pos_iff.mpr ?_, List.length_pos_iff.mpr ?_⟩
  · rintro rfl
    rw [broadcast?_nil_left] at h
    cases h
  · rintro rfl
    rw [broadcast?_nil_right] at h
    cases h

/-- Broadcasting fails on its two operands, and both have axes. -/
theorem broadcast_eq_error {l r : Shape} {e : ShapeError} (h : broadcast l r = .error e) :
    e = .notBroadcastable l r ∧ 0 < l.rank ∧ 0 < r.rank := by
  unfold broadcast at h
  split at h
  · cases h
  · next hnone => exact ⟨(Except.error.inj h).symm, rank_pos_of_broadcast?_eq_none hnone⟩

/-! ### Any number of shapes -/

/-- Any two of the shapes agree at every position where neither has size one. -/
def Joinable (ss : List Shape) : Prop :=
  ∀ s ∈ ss, ∀ t ∈ ss, ∀ k,
    s.sizeFromEnd k = 1 ∨ t.sizeFromEnd k = 1 ∨ s.sizeFromEnd k = t.sizeFromEnd k

/-- `IsJoint ss s` says that `s` is the joint shape of `ss`: it has as many axes as the longest of
them, and every size of it other than one is that of all shapes that do not have one there. -/
structure IsJoint (ss : List Shape) (s : Shape) : Prop where
  rank_eq : s.rank = (ss.map rank).foldr max 0
  size_eq : ∀ t ∈ ss, ∀ k, t.sizeFromEnd k = 1 ∨ t.sizeFromEnd k = s.sizeFromEnd k
  attained : ∀ k, s.sizeFromEnd k = 1 ∨ ∃ t ∈ ss, t.sizeFromEnd k = s.sizeFromEnd k

theorem eq_of_sizeFromEnd_eq {s t : Shape} (hrank : s.rank = t.rank)
    (h : ∀ k, s.sizeFromEnd k = t.sizeFromEnd k) : s = t := by
  refine List.reverse_inj.mp (eq_of_getD_eq ?_ h)
  rw [List.length_reverse, List.length_reverse]
  exact hrank

variable {a b c s : Shape} {ss : List Shape}

/-- Shapes have at most one joint shape. -/
theorem IsJoint.eq {t : Shape} (hs : IsJoint ss s) (ht : IsJoint ss t) : s = t := by
  refine eq_of_sizeFromEnd_eq (hs.rank_eq.trans ht.rank_eq.symm) fun k => ?_
  have hle {s t : Shape} (hs : IsJoint ss s) (ht : IsJoint ss t) :
      s.sizeFromEnd k = 1 ∨ s.sizeFromEnd k = t.sizeFromEnd k := by
    rcases hs.attained k with hone | ⟨u, hu, heq⟩
    · exact Or.inl hone
    · exact heq ▸ ht.size_eq u hu k
  have hst := hle hs ht
  have hts := hle ht hs
  omega

theorem IsJoint.joinable (h : IsJoint ss s) : Joinable ss := by
  intro t ht u hu k
  have hts := h.size_eq t ht k
  have hus := h.size_eq u hu k
  omega

theorem isJoint_singleton (s : Shape) : IsJoint [s] s where
  rank_eq := (Nat.max_zero _).symm
  size_eq := by simp
  attained := by simp

/-- Besides the number of axes, the joint shape is told position by position. -/
theorem isJoint_iff : IsJoint ss s ↔ s.rank = (ss.map rank).foldr max 0 ∧
    ∀ k, (∀ t ∈ ss, t.sizeFromEnd k = 1 ∨ t.sizeFromEnd k = s.sizeFromEnd k) ∧
      (s.sizeFromEnd k = 1 ∨ ∃ t ∈ ss, t.sizeFromEnd k = s.sizeFromEnd k) := by
  constructor
  · intro h
    exact ⟨h.rank_eq, fun k => ⟨fun t ht => h.size_eq t ht k, h.attained k⟩⟩
  · rintro ⟨hrank, h⟩
    exact ⟨hrank, fun t ht k => (h k).1 t ht, fun k => (h k).2⟩

/-- A shape without axes does not count. -/
theorem isJoint_nil_cons : IsJoint ([] :: ss) s ↔ IsJoint ss s := by
  have hfold : (([] :: ss).map rank).foldr max 0 = (ss.map rank).foldr max 0 := Nat.zero_max _
  rw [isJoint_iff, isJoint_iff, hfold]
  refine and_congr_right fun _ => forall_congr' fun k => ?_
  simp only [List.mem_cons, forall_eq_or_imp, exists_eq_or_imp, sizeFromEnd_nil]
  grind

/-- The common shape of the first two shapes can stand for both of them. -/
theorem isJoint_cons_of_broadcast? (h : broadcast? a b = some c) :
    IsJoint (c :: ss) s ↔ IsJoint (a :: b :: ss) s := by
  obtain ⟨hrank, hsizes⟩ := broadcast?_eq_some_iff.mp h
  simp only [joinSizes_eq_some_iff] at hsizes
  have hfold : ((c :: ss).map rank).foldr max 0 = ((a :: b :: ss).map rank).foldr max 0 := by
    simp only [List.map_cons, List.foldr_cons, hrank, Nat.max_assoc]
  rw [isJoint_iff, isJoint_iff, hfold]
  refine and_congr_right fun _ => forall_congr' fun k => ?_
  have hk := hsizes k
  simp only [List.mem_cons, forall_eq_or_imp, exists_eq_or_imp]
  grind

/-- **The joint shape.** Shapes that are broadcast one after the other give the joint shape of all
of them, by induction on the list: each step puts the common shape of two in their place. -/
theorem foldlM_broadcast?_eq_some_iff :
    ss.foldlM broadcast? a = some s ↔ IsJoint (a :: ss) s := by
  induction ss generalizing a with
  | nil =>
    constructor
    · intro h
      exact Option.some.inj h ▸ isJoint_singleton a
    · intro h
      exact congrArg some ((isJoint_singleton a).eq h)
  | cons b ss ih =>
    rw [List.foldlM_cons, Option.bind_eq_bind, Option.bind_eq_some_iff]
    constructor
    · rintro ⟨c, hc, h⟩
      exact (isJoint_cons_of_broadcast? hc).mp (ih.mp h)
    · intro h
      obtain ⟨c, hc⟩ := exists_broadcast?_iff.mpr (h.joinable a (by simp) b (by simp))
      exact ⟨c, hc, ih.mpr ((isJoint_cons_of_broadcast? hc).mpr h)⟩

/-- The common shape of the first two shapes can stand for both of them. -/
theorem joinable_cons_of_broadcast? (h : broadcast? a b = some c) (hj : Joinable (a :: b :: ss)) :
    Joinable (c :: ss) := by
  obtain ⟨-, hsizes⟩ := broadcast?_eq_some_iff.mp h
  simp only [joinSizes_eq_some_iff] at hsizes
  have hc (t : Shape) (ht : t ∈ ss) (k : Nat) :
      c.sizeFromEnd k = 1 ∨ t.sizeFromEnd k = 1 ∨ c.sizeFromEnd k = t.sizeFromEnd k := by
    have hk := hsizes k
    have hat := hj a (by simp) t (by simp [ht]) k
    have hbt := hj b (by simp) t (by simp [ht]) k
    omega
  intro t ht u hu k
  rcases List.mem_cons.mp ht with rfl | htail
  · rcases List.mem_cons.mp hu with rfl | hutail
    · exact Or.inr (Or.inr rfl)
    · exact hc u hutail k
  · rcases List.mem_cons.mp hu with rfl | hutail
    · have hut := hc t htail k
      omega
    · exact hj t (by simp [htail]) u (by simp [hutail]) k

/-- **When shapes have a joint shape**: if any two of them agree at every position where neither has
size one. -/
theorem exists_isJoint_iff : (∃ s, IsJoint ss s) ↔ Joinable ss := by
  constructor
  · rintro ⟨s, hs⟩
    exact hs.joinable
  · intro h
    match ss with
    | [] => exact ⟨[], isJoint_nil_cons.mp (isJoint_singleton [])⟩
    | a :: ss =>
      induction ss generalizing a with
      | nil => exact ⟨a, isJoint_singleton a⟩
      | cons b ss ih =>
        obtain ⟨c, hc⟩ := exists_broadcast?_iff.mpr (h a (by simp) b (by simp))
        obtain ⟨s, hs⟩ := ih c (joinable_cons_of_broadcast? hc h)
        exact ⟨s, (isJoint_cons_of_broadcast? hc).mp hs⟩

end ShapeFault.Shape
