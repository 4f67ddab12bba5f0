import ShapeFault.Proofs.Shape.Assignment
import ShapeFault.Proofs.Shape.Broadcast
import ShapeFault.Proofs.Shape.Index

/-!
# What an index makes of a shape

An index goes through its selectors with the sizes found so far, and keeps the arrays apart until
the end. The loop over axes and errors is a fold over the selectors with the axes assigned to them
(`applySelectors_eq_ok_iff`), and what comes out of the fold is known at every step: the arranged
axes (`Selection.shape_foldlM_extend?_iff`).

Main statement: an index succeeds exactly if its selectors fit and its arrays have a joint shape,
and its result is then the arranged shape (`index_arranges_assigned_selectors`).
-/

namespace ShapeFault.Shape

/-! ### The loop over the axes -/

namespace Selection

/-- The joint shape of the arrays so far. -/
def joint (r : Selection) : Shape :=
  (r.arrays.map Prod.snd).getD []

/-- The place of the first array, which is the end as long as there is none. -/
def place (r : Selection) : Nat :=
  (r.arrays.map Prod.fst).getD r.sizes.length

/-- The selection with one more selector. -/
def extend? (r : Selection) (p : Selector × Nat) : Option Selection :=
  match p.1.array? with
  | some s => (broadcast? r.joint s).map fun j => ⟨r.sizes, some (r.place, j)⟩
  | none => some ⟨r.sizes ++ p.1.axes p.2, r.arrays⟩

/-- Arrays are joined if their shapes have a common shape. -/
theorem join_eq_ok_iff {r r' : Selection} {s : Shape} : r.join s = .ok r' ↔
    (broadcast? r.joint s).map (fun j => Selection.mk r.sizes (some (r.place, j))) = some r' := by
  have hok {q : Selection} : Except.ok (ε := ShapeError) q = .ok r' ↔ some q = some r' :=
    ⟨fun h => congrArg some (Except.ok.inj h), fun h => congrArg Except.ok (Option.some.inj h)⟩
  obtain ⟨sizes, arrays⟩ := r
  match arrays with
  | none =>
    change Except.ok _ = _ ↔ (broadcast? [] s).map _ = _
    rw [broadcast?_nil_left]
    exact hok
  | some (place, j) =>
    have hjoin : join ⟨sizes, some (place, j)⟩ s =
        (broadcast j s).bind fun j => .ok ⟨sizes, some (place, j)⟩ := rfl
    change _ ↔ (broadcast? j s).map _ = _
    rw [hjoin, broadcast]
    cases broadcast? j s with
    | none => exact ⟨nofun, nofun⟩
    | some k => exact hok

end Selection

section Loop

open Selection

variable {r r' : Selection} {axis n : Nat}

/-- **One step of the loop.** A selector is applied to an axis if it can be, and then extends the
selection. -/
theorem applySelector_eq_ok_iff {s : Selector} (hs : s ≠ .newAxis)
    (hn : s.isInt = true → n < Word.half) :
    applySelector r axis n s = .ok r' ↔ s.Applies n ∧ r.extend? (s, n) = some r' := by
  cases s with
  | int i =>
    rw [applySelector_int (hn rfl)]
    by_cases h : -n ≤ i ∧ i < n
    · simp [h, Selector.Applies, Selection.extend?, Selector.array?, Selector.axes]
    · simp [h, Selector.Applies]
  | slice sl =>
    rw [applySelector_slice]
    cases hcount : sl.count n with
    | error e => simp [Except.map, Selector.Applies, hcount]
    | ok m =>
      simp [Except.map, Selector.Applies, hcount, Slice.length_of_count hcount,
        Selection.extend?, Selector.array?, Selector.axes, Selection.push]
  | full | ellipsis =>
    simp [applySelector, Selector.Applies, Selection.extend?, Selector.array?, Selector.axes,
      Selection.push]
  | newAxis => exact absurd rfl hs
  | array t =>
    simp [applySelector, Selection.join_eq_ok_iff, Selector.Applies, Selection.extend?,
      Selector.array?]

theorem foldlM_extend?_full (ns : Shape) : (ns.map (Selector.full, ·)).foldlM extend? r =
    some ⟨r.sizes ++ ns, r.arrays⟩ := by
  induction ns generalizing r with
  | nil => simp
  | cons n ns ih => simp [extend?, Selector.array?, Selector.axes, ih]

/-- One round of the loop, in front of a rest of it that is known. -/
theorem bind_applySelector_eq_ok_iff {k : Selection → Except ShapeError Selection} {s : Selector}
    {ps : List (Selector × Nat)} (hs : s ≠ .newAxis) (hn : s.isInt = true → n < Word.half)
    (hk : ∀ q, k q = .ok r' ↔ (∀ p ∈ ps, p.1.Applies p.2) ∧ ps.foldlM extend? q = some r') :
    (applySelector r axis n s >>= k) = .ok r' ↔
      (∀ p ∈ (s, n) :: ps, p.1.Applies p.2) ∧ ((s, n) :: ps).foldlM extend? r = some r' := by
  rw [List.forall_mem_cons, List.foldlM_cons, Option.bind_eq_bind, Option.bind_eq_some_iff]
  constructor
  · intro h
    cases happly : applySelector r axis n s with
    | error e =>
      rw [happly] at h
      cases h
    | ok q =>
      rw [happly] at h
      obtain ⟨happlies, hextend⟩ := (applySelector_eq_ok_iff hs hn).mp happly
      obtain ⟨hps, hfold⟩ := (hk q).mp h
      exact ⟨⟨happlies, hps⟩, q, hextend, hfold⟩
  · rintro ⟨⟨happlies, hps⟩, q, hextend, hfold⟩
    rw [(applySelector_eq_ok_iff hs hn).mpr ⟨happlies, hextend⟩]
    exact (hk q).mpr ⟨hps, hfold⟩

/-- **The loop.** It comes to an end exactly if every selector can be applied to its axis and
extends the selection before it, by induction along the assignment of axes. -/
theorem applySelectors_eq_ok_iff {ss : List Selector} {ns : Shape}
    (hns : ∀ p ∈ Selector.assign ss ns, p.1.isInt = true → p.2 < Word.half) :
    applySelectors r axis ss ns = .ok r' ↔
      (∀ p ∈ Selector.assign ss ns, p.1.Applies p.2) ∧
        (Selector.assign ss ns).foldlM extend? r = some r' := by
  fun_induction Selector.assign ss ns generalizing r axis with
  | case1 ns =>
    have happlies : ∀ p ∈ ns.map (Selector.full, ·), p.1.Applies p.2 :=
      List.forall_mem_map.mpr fun _ _ => trivial
    rw [applySelectors, foldlM_extend?_full, and_iff_right happlies]
    simp
  | case2 ns ss ih =>
    rw [applySelectors, ih (List.forall_mem_cons.mp hns).2, List.forall_mem_cons, List.foldlM_cons]
    exact and_congr_left fun _ => (and_iff_right trivial).symm
  | case3 s ss n ns hs ih =>
    obtain ⟨hn, hns⟩ := List.forall_mem_cons.mp hns
    rw [applySelectors]
    · exact bind_applySelector_eq_ok_iff hs hn fun _ => ih hns
    · exact hs
  | case4 s ss hs ih =>
    obtain ⟨hn, hns⟩ := List.forall_mem_cons.mp hns
    rw [applySelectors]
    · exact bind_applySelector_eq_ok_iff hs hn fun _ => ih hns
    · exact hs

end Loop

/-! ### The arranged shape -/

namespace Selection

/-- The place of the arrays is one among the sizes. -/
def IsPlaced (r : Selection) : Prop :=
  r.place ≤ r.sizes.length

/-- What comes out of a selection in the end: the sizes so far, in front of the arranged axes of
the selectors to come, or around the joint shape if its place is known. -/
def arrange (r : Selection) (joint : Shape) (ps : List (Selector × Nat)) : Shape :=
  match r.arrays with
  | none => r.sizes ++ Shape.arrange joint ps
  | some (place, _) => r.sizes.take place ++ joint ++ (r.sizes.drop place ++ keptAxes ps)

variable {r r' : Selection} {joint : Shape} {p : Selector × Nat} {ps : List (Selector × Nat)}

theorem shape_eq_arrange (r : Selection) : r.shape = r.arrange r.joint [] := by
  obtain ⟨sizes, arrays⟩ := r
  cases arrays with
  | none => simp [shape, arrange, Selection.joint, arrange_nil]
  | some placed => simp [shape, arrange, Selection.joint, keptAxes]

/-- A step joins the array of its selector, if it is one. -/
theorem joint_extend? (r : Selection) (p : Selector × Nat) :
    (r.extend? p).map Selection.joint = p.1.array?.toList.foldlM broadcast? r.joint := by
  unfold extend?
  cases p.1.array? with
  | none => rfl
  | some s =>
    rw [Option.map_map, Option.toList_some, List.foldlM_cons]
    cases broadcast? r.joint s <;> rfl

/-- **A step keeps what comes out** in the end, whatever the joint shape will be. -/
theorem arrange_of_extend? (hr : r.IsPlaced) (h : r.extend? p = some r') :
    r'.IsPlaced ∧ r'.arrange joint ps = r.arrange joint (p :: ps) := by
  obtain ⟨sizes, arrays⟩ := r
  cases harray : p.1.array? with
  | none =>
    simp only [extend?, harray, Option.some.injEq] at h
    subst h
    cases arrays with
    | none =>
      refine ⟨Nat.le_refl _, ?_⟩
      simp only [arrange, arrange_cons_of_not_array harray, List.append_assoc]
    | some placed =>
      have hplace : placed.1 ≤ sizes.length := hr
      refine ⟨Nat.le_trans hplace (List.length_append ▸ Nat.le_add_right _ _), ?_⟩
      simp only [arrange, List.take_append_of_le_length hplace,
        List.drop_append_of_le_length hplace, keptAxes_cons, List.append_assoc]
  | some s =>
    simp only [extend?, harray, Option.map_eq_some_iff] at h
    obtain ⟨j, -, rfl⟩ := h
    refine ⟨hr, ?_⟩
    cases arrays with
    | none => simp [arrange, place, arrange_cons_of_array harray]
    | some placed => simp [arrange, place, keptAxes_cons_of_array harray]

/-- **What comes out of a run.** A run over selectors comes to an end if the shapes of their arrays
can be joined, and then in what the selection announces for their joint shape; by induction on the
selectors. -/
theorem shape_foldlM_extend?_iff {o : Shape} (hr : r.IsPlaced) :
    (∃ r', ps.foldlM extend? r = some r' ∧ r'.shape = o) ↔
      ∃ joint, (ps.filterMap (·.1.array?)).foldlM broadcast? r.joint = some joint ∧
        o = r.arrange joint ps := by
  induction ps generalizing r with
  | nil =>
    constructor
    · rintro ⟨_, ⟨⟩, rfl⟩
      exact ⟨_, rfl, r.shape_eq_arrange⟩
    · rintro ⟨_, ⟨⟩, rfl⟩
      exact ⟨r, rfl, r.shape_eq_arrange⟩
  | cons p ps ih =>
    have harrays : (p :: ps).filterMap (·.1.array?) =
        p.1.array?.toList ++ ps.filterMap (·.1.array?) := by
      rw [List.filterMap_cons]
      cases p.1.array? <;> rfl
    rw [harrays]
    simp only [List.foldlM_cons, List.foldlM_append, ← joint_extend?]
    cases hextend : r.extend? p with
    | none => simp
    | some q =>
      have hq (joint : Shape) := @arrange_of_extend? r q joint p ps hr hextend
      simp only [Option.bind_eq_bind, Option.map_some, Option.bind_some, ← (hq _).2]
      exact ih (hq []).1

end Selection

/-! ### The whole index -/

variable {s o : Shape} {sels : List Selector}

/-- **What an index gives.** It succeeds exactly if it has one ellipsis at most, not more selectors
than there are axes, every selector can be applied to its axis and the arrays have a joint shape;
and then it gives the arranged axes. Only the axis of an integer has to be one that a word with a
sign counts. -/
theorem index_eq_ok_iff_of_ints
    (hs : ∀ p ∈ s.assigned sels, p.1.isInt = true → p.2 < Word.half) : index s sels = .ok o ↔
    sels.count .ellipsis ≤ 1 ∧ sels.countP Selector.takesAxis ≤ s.rank ∧
      (∀ p ∈ s.assigned sels, p.1.Applies p.2) ∧
      ∃ joint, IsJoint (sels.filterMap Selector.array?) joint ∧
        o = arrange joint (s.assigned sels) := by
  have hempty : Selection.IsPlaced ⟨[], none⟩ := Nat.le_refl 0
  -- the loop is a fold over the assigned selectors
  have hrun (r : Selection) : s.runSelectors sels = .ok r ↔
      (∀ p ∈ s.assigned sels, p.1.Applies p.2) ∧
        (s.assigned sels).foldlM Selection.extend? ⟨[], none⟩ = some r :=
    applySelectors_eq_ok_iff hs
  -- and the fold joins the arrays in the order in which they are given
  have hjoint (joint : Shape) :
      ((s.assigned sels).filterMap (·.1.array?)).foldlM broadcast? [] = some joint ↔
        IsJoint (sels.filterMap Selector.array?) joint := by
    rw [arrays_assigned, foldlM_broadcast?_eq_some_iff, isJoint_nil_cons]
  simp only [index_eq_ok_iff_runSelectors, hrun, and_assoc, exists_and_left]
  refine and_congr_right fun _ => and_congr_right fun _ => and_congr_right fun _ => ?_
  rw [Selection.shape_foldlM_extend?_iff hempty]
  exact exists_congr fun joint => and_congr_left fun _ => hjoint joint

theorem lt_half_of_mem_assigned (hs : ∀ n ∈ s, n < Word.half) (sels : List Selector) :
    ∀ p ∈ s.assigned sels, p.2 < Word.half := by
  intro p hp
  rcases Selector.snd_mem_or_eq_one_of_mem_assign hp with h | h
  · exact hs _ h
  · rw [h]
    decide

/-- Along axes that words with a sign count, the selectors have to fit. -/
theorem index_eq_ok_iff (hs : ∀ n ∈ s, n < Word.half) : index s sels = .ok o ↔
    sels.count .ellipsis ≤ 1 ∧ sels.countP Selector.takesAxis ≤ s.rank ∧
      (∀ p ∈ s.assigned sels, p.1.Fits p.2) ∧
      ∃ joint, IsJoint (sels.filterMap Selector.array?) joint ∧
        o = arrange joint (s.assigned sels) := by
  have hsizes := lt_half_of_mem_assigned hs sels
  have happlies : (∀ p ∈ s.assigned sels, p.1.Applies p.2) ↔
      ∀ p ∈ s.assigned sels, p.1.Fits p.2 :=
    forall₂_congr fun p hp => Selector.applies_iff_fits (hsizes p hp)
  rw [index_eq_ok_iff_of_ints fun p hp _ => hsizes p hp, happlies]

/-- **Indexing gives the declared shape.** Let the selectors be assigned to the axes from left to
right, an ellipsis standing for as many full ones as there are axes left. The index succeeds exactly
if there is one ellipsis at most, not more selectors take an axis than there are axes, every integer
is a position of its axis, no slice has the step zero, and the arrays can be joined. What comes out
are the axes that the selectors make one after the other, with the joint shape of the arrays in the
place of the first of them; so its rank is known from the kinds of the selectors, and no axis gets
longer. -/
theorem index_arranges_assigned_selectors (hs : ∀ n ∈ s, n < Word.half) (sels : List Selector) :
    ((∃ o, index s sels = .ok o) ↔
      sels.count .ellipsis ≤ 1 ∧ sels.countP Selector.takesAxis ≤ s.rank ∧
        (∀ p ∈ s.assigned sels, p.1.Fits p.2) ∧ Joinable (sels.filterMap Selector.array?)) ∧
    ∀ o, index s sels = .ok o →
      ((s.assigned sels).filter (·.1.takesAxis)).map Prod.snd = s ∧
      (∀ p ∈ s.assigned sels, p.1.takesAxis → ∀ k ∈ p.1.axes p.2, k ≤ p.2) ∧
      ∃ joint, IsJoint (sels.filterMap Selector.array?) joint ∧
        o = arrange joint (s.assigned sels) ∧
        o.rank + sels.countP Selector.isInt + sels.countP Selector.isArray =
          s.rank + sels.count .newAxis + joint.rank := by
  constructor
  · rw [← exists_isJoint_iff]
    simp only [index_eq_ok_iff hs, exists_and_left]
    exact and_congr_right fun _ => and_congr_right fun _ => and_congr_right fun _ =>
      ⟨fun ⟨_, joint, hjoint, _⟩ => ⟨joint, hjoint⟩, fun ⟨joint, hjoint⟩ => ⟨_, joint, hjoint, rfl⟩⟩
  · intro o ho
    obtain ⟨hellipses, htaken, -, joint, hjoint, rfl⟩ := (index_eq_ok_iff hs).mp ho
    exact ⟨sizes_assigned hellipses htaken, 
      fun p hp htakes => Selector.axes_le (lt_half_of_mem_assigned hs sels p hp) htakes,
      joint, hjoint, rfl, rank_arrange_assigned hellipses htaken joint⟩

/-- An index with arrays on both sides of a slice and an ellipsis, behind a new axis. -/
theorem index_with_arrays_around_slice :
    (∀ n ∈ [4, 5, 6, 7, 8], n < Word.half) ∧
      index [4, 5, 6, 7, 8] [.int (-1), .newAxis, .array [2, 1], .slice ⟨some 1, none, some 2⟩,
        .ellipsis, .array [3]] = .ok [1, 2, 3, 3, 7] ∧
      ∃ joint, IsJoint [[2, 1], [3]] joint ∧ [1, 2, 3, 3, 7] = [1] ++ joint ++ [3, 7] := by
  have hs : ∀ n ∈ [4, 5, 6, 7, 8], n < Word.half := by decide
  have hindex : index [4, 5, 6, 7, 8] [.int (-1), .newAxis, .array [2, 1],
      .slice ⟨some 1, none, some 2⟩, .ellipsis, .array [3]] = .ok [1, 2, 3, 3, 7] := by
    decide
  obtain ⟨-, -, joint, hjoint, ho, -⟩ := (index_arranges_assigned_selectors hs _).2 _ hindex
  exact ⟨hs, hindex, joint, hjoint, ho⟩

end ShapeFault.Shape
