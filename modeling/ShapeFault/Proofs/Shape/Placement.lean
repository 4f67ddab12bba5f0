import ShapeFault.Proofs.Shape.Selection

/-!
# The place of the joint shape

The arrays of an index are replaced by their joint shape. Array libraries put it in the place of the
first array if the arrays are next to each other, and in front of all other axes if a slice keeps an
axis between two of them, since then no place is that of all arrays.

An index here puts the joint shape in the place of the first array in both cases
(`index_places_joint_shape`). For separated arrays it is in front of all other axes only if that
makes no difference: if the axes that are made before the first array can be exchanged with it. In
general they can not (`joint_shape_of_separated_arrays_not_in_front`).
-/

namespace ShapeFault

/-- Two arrays of an index have a slice or a full selector between them. -/
def Selector.Separated (sels : List Selector) : Prop :=
  ∃ front s between t back, sels = front ++ array s :: (between ++ array t :: back) ∧
    ∃ sel ∈ between, sel = full ∨ ∃ sl, sel = slice sl

namespace Shape

variable {s o joint : Shape} {sels : List Selector} {ps front back : List (Selector × Nat)}

theorem keptAxes_append : keptAxes (front ++ back) = keptAxes front ++ keptAxes back :=
  List.flatMap_append

/-- The axes around the first array are arranged around the joint shape. -/
theorem arrange_append_array {t : Shape} {n : Nat} (hfront : ∀ p ∈ front, p.1.array? = none) :
    arrange joint (front ++ (.array t, n) :: back) =
      keptAxes front ++ joint ++ keptAxes back := by
  induction front with
  | nil => exact arrange_cons_of_array rfl
  | cons p front ih =>
    obtain ⟨hp, hfront⟩ := List.forall_mem_cons.mp hfront
    rw [List.cons_append, arrange_cons_of_not_array hp, ih hfront, keptAxes_cons,
      List.append_assoc, List.append_assoc, List.append_assoc]

/-- A list of selectors with an array has a first one. -/
theorem exists_first_array (h : ∃ p ∈ ps, p.1.isArray = true) :
    ∃ front t n back, ps = front ++ (.array t, n) :: back ∧ ∀ p ∈ front, p.1.array? = none := by
  obtain ⟨p, hp⟩ := Option.isSome_iff_exists.mp (List.find?_isSome.mpr h)
  obtain ⟨harray, front, back, rfl, hfront⟩ := List.find?_eq_some_iff_append.mp hp
  obtain ⟨sel, n⟩ := p
  obtain ⟨t, rfl⟩ : ∃ t, sel = .array t := by
    cases sel <;> first | exact ⟨_, rfl⟩ | cases harray
  refine ⟨front, t, n, back, rfl, fun p hp => ?_⟩
  simpa [Selector.isArray] using hfront p hp

/-- Whether one of the selectors of an index is of some kind can be told of the assigned ones. -/
theorem exists_assigned_iff {q : Selector → Bool} (hfull : q .full = false)
    (hellipsis : q .ellipsis = false) :
    (∃ p ∈ s.assigned sels, q p.1 = true) ↔ ∃ sel ∈ sels, q sel = true := by
  rw [← List.countP_pos_iff, ← List.countP_pos_iff, ← @countP_assigned s sels q hfull hellipsis,
    List.countP_map]
  rfl

/-- **The joint shape stands in the place of the first array.** Let an index without integers have
an array, and succeed. Then it gives the axes that the selectors make, with the joint shape of the
arrays in the place of the first one, whatever stands between the arrays. So the joint shape is in
front of all other axes exactly if the axes made before the first array can be exchanged with it. -/
theorem index_places_joint_shape (hints : ∀ sel ∈ sels, sel.isInt = false)
    (harray : ∃ sel ∈ sels, sel.isArray = true) (h : index s sels = .ok o) :
    ∃ joint, IsJoint (sels.filterMap Selector.array?) joint ∧
      ∃ front t n back, s.assigned sels = front ++ (.array t, n) :: back ∧
        (∀ p ∈ front, p.1.isArray = false) ∧ o = keptAxes front ++ joint ++ keptAxes back ∧
        (o = joint ++ keptAxes (s.assigned sels) ↔
          keptAxes front ++ joint = joint ++ keptAxes front) := by
  have hwords : ∀ p ∈ s.assigned sels, p.1.isInt = true → p.2 < Word.half := by
    intro p hp hint
    obtain ⟨sel, hsel, hint⟩ := (exists_assigned_iff rfl rfl).mp ⟨p, hp, hint⟩
    exact absurd hint (by simp [hints sel hsel])
  obtain ⟨-, -, -, joint, hjoint, rfl⟩ := (index_eq_ok_iff_of_ints hwords).mp h
  obtain ⟨front, t, n, back, hassigned, hfront⟩ :=
    exists_first_array ((exists_assigned_iff (s := s) rfl rfl).mpr harray)
  refine ⟨joint, hjoint, front, t, n, back, hassigned, fun p hp => ?_, ?_, ?_⟩
  · simp [Selector.isArray, hfront p hp]
  · rw [hassigned, arrange_append_array hfront]
  · rw [hassigned, arrange_append_array hfront, keptAxes_append, keptAxes_cons_of_array rfl,
      ← List.append_assoc joint, List.append_left_inj]

/-- An index with a full selector in front of, and another between, its two arrays. -/
theorem index_by_arrays_around_full :
    (∀ sel ∈ [Selector.full, .array [6], .full, .array [7, 1]], sel.isInt = false) ∧
      (∃ sel ∈ [Selector.full, .array [6], .full, .array [7, 1]], sel.isArray = true) ∧
      index [2, 3, 4, 5] [.full, .array [6], .full, .array [7, 1]] = .ok [2, 7, 6, 4] ∧
      ∃ joint, IsJoint [[6], [7, 1]] joint ∧
        ∃ front back, [2, 7, 6, 4] = front ++ joint ++ back := by
  have hints : ∀ sel ∈ [Selector.full, .array [6], .full, .array [7, 1]], sel.isInt = false := by
    decide
  have harray : ∃ sel ∈ [Selector.full, .array [6], .full, .array [7, 1]], sel.isArray = true := by
    decide
  have hindex : index [2, 3, 4, 5] [.full, .array [6], .full, .array [7, 1]] = .ok [2, 7, 6, 4] :=
    rfl
  obtain ⟨joint, hjoint, front, t, n, back, -, -, ho, -⟩ :=
    index_places_joint_shape hints harray hindex
  exact ⟨hints, harray, hindex, joint, hjoint, keptAxes front, keptAxes back, ho⟩

/-- **Separated arrays are not brought to the front.** Two of them behind a full selector leave its
axis in front of their joint shape. -/
theorem joint_shape_of_separated_arrays_not_in_front :
    ¬∀ (s : Shape) (sels : List Selector) (o : Shape), (∀ sel ∈ sels, sel.isInt = false) →
      Selector.Separated sels → index s sels = .ok o →
        ∃ joint, IsJoint (sels.filterMap Selector.array?) joint ∧
          o = joint ++ keptAxes (s.assigned sels) := by
  intro h
  have hseparated : Selector.Separated [.full, .array [6], .full, .array [6]] :=
    ⟨[.full], [6], [.full], [6], [], rfl, .full, List.mem_cons_self, Or.inl rfl⟩
  obtain ⟨joint, hjoint, ho⟩ := h [2, 3, 4, 5] [.full, .array [6], .full, .array [6]] [2, 6, 4]
    (by decide) hseparated rfl
  obtain rfl : joint = [6] := hjoint.eq (foldlM_broadcast?_eq_some_iff.mp rfl)
  cases ho

end Shape

end ShapeFault
