import ShapeFault.Proofs.Shape.Respelling

/-!
# Where an index stops

An index goes through its selectors from left to right and stops at the first of them that cannot be
applied to its axis. The selectors in front of that one, taken as an index of the axes in front of
its axis, succeed (`runSelectors_eq_error_iff`). A position that is not one of its axis is reported
with the number of that axis and its size (`index_eq_indexOutOfBounds_iff`).

An index that is not refused at once has an axis for every selector that takes one, so what the loop
does without an axis is of no matter (`indexOr_eq_index`).
-/

namespace ShapeFault

namespace Selector

variable {fill : Nat} {ss front' back' : List Selector} {sel : Selector}

/-- A selector that is not full comes from the selectors as they are given: an ellipsis leaves
nothing but full ones. -/
theorem exists_append_cons_of_expand (hsel : sel ≠ full)
    (h : expand fill ss = front' ++ sel :: back') :
    ∃ front back, ss = front ++ sel :: back ∧ expand fill front = front' := by
  induction ss generalizing front' with
  | nil => cases front' <;> cases h
  | cons t ss ih =>
    by_cases ht : t = ellipsis
    · subst ht
      rw [expand_ellipsis_cons] at h
      -- none of the full ones stands for the selector, so all of them are in front of it
      obtain ⟨rest', rfl, hrest⟩ : ∃ rest', front' = List.replicate fill full ++ rest' ∧
          expand fill ss = rest' ++ sel :: back' := by
        rcases List.append_eq_append_iff.mp h with hfront | ⟨rest, hfull, hrest⟩
        · exact hfront
        · cases rest with
          | nil => exact ⟨[], by rw [hfull, List.append_nil, List.append_nil], hrest.symm⟩
          | cons u rest =>
            obtain ⟨rfl, -⟩ := List.cons.inj hrest
            have hmem : sel ∈ List.replicate fill full :=
              hfull ▸ List.mem_append_right front' List.mem_cons_self
            exact absurd (List.eq_of_mem_replicate hmem) hsel
      obtain ⟨front, back, rfl, rfl⟩ := ih hrest
      exact ⟨ellipsis :: front, back, rfl, expand_ellipsis_cons⟩
    · rw [expand_cons ht] at h
      cases front' with
      | nil =>
        obtain ⟨rfl, -⟩ := List.cons.inj h
        exact ⟨[], ss, rfl, rfl⟩
      | cons u front' =>
        obtain ⟨rfl, hrest⟩ := List.cons.inj h
        obtain ⟨front, back, rfl, rfl⟩ := ih hrest
        exact ⟨t :: front, back, rfl, expand_cons ht⟩

end Selector

namespace Shape

open Selector (expand takesAxis)

variable {s sizes : Shape} {r : Selection} {axis n : Nat} {sel : Selector}
  {ss sels front back : List Selector} {e : ShapeError}

/-! ### One selector -/

/-- Why a selector cannot be applied to an axis. -/
theorem applySelector_eq_error_cases (hn : n < Word.half)
    (h : applySelector r axis n sel = .error e) :
    (∃ i, sel = .int i ∧ ¬(-n ≤ i ∧ i < n) ∧ e = .indexOutOfBounds i axis n) ∨
      (∃ sl, sel = .slice sl ∧ sl.step = some 0 ∧ e = .zeroStep) ∨
        ∃ t left right, sel = .array t ∧ e = .notBroadcastable left right := by
  cases sel with
  | int i =>
    rw [applySelector_int hn] at h
    split at h
    · cases h
    · next hi => exact Or.inl ⟨i, rfl, hi, (Except.error.inj h).symm⟩
  | slice sl =>
    rw [applySelector_slice] at h
    by_cases hstep : sl.step = some 0
    · rw [Slice.count_of_step_eq_zero hstep] at h
      exact Or.inr (Or.inl ⟨sl, rfl, hstep, (Except.error.inj h).symm⟩)
    · rw [Slice.count_of_step_ne_zero hn hstep] at h
      cases h
  | array t =>
    obtain ⟨sizes, arrays⟩ := r
    match arrays with
    | none => cases h
    | some (place, joint) =>
      obtain hjoint | ⟨joint, -, hok⟩ := bind_eq_error_iff.mp h
      · exact Or.inr (Or.inr ⟨t, joint, t, rfl, (broadcast_eq_error hjoint).1⟩)
      · cases hok
  | full | ellipsis | newAxis => cases h

/-- A selector that some axis does not suit takes an axis, and does not just keep it. -/
theorem takesAxis_and_ne_full_of_error (h : applySelector r axis n sel = .error e) :
    sel.takesAxis = true ∧ sel ≠ .full := by
  cases sel with
  | full | ellipsis | newAxis => cases h
  | int | slice | array => simp [takesAxis]

/-! ### The loop -/

/-- The loop stops with an error: the selectors in front of one of them use up the axes in front of
its axis, and it cannot be applied. -/
def StopsWith (e : ShapeError) (r : Selection) (axis : Nat) (ss : List Selector) (sizes : Shape) :
    Prop :=
  ∃ front sel back n r', ss = front ++ sel :: back ∧ sizes[front.countP takesAxis]? = some n ∧
    applySelectors r axis front (sizes.take (front.countP takesAxis)) = .ok r' ∧
    applySelector r' (axis + front.countP takesAxis) n sel = .error e

namespace StopsWith

/-- The loop stops at its first selector. -/
theorem head (h : applySelector r axis n sel = .error e) :
    StopsWith e r axis (sel :: ss) (n :: sizes) :=
  ⟨[], sel, ss, n, r, rfl, rfl, applySelectors_nil_nil, h⟩

/-- The loop stops behind a new axis. -/
theorem newAxis (h : StopsWith e (r.push 1) axis ss sizes) :
    StopsWith e r axis (.newAxis :: ss) sizes := by
  obtain ⟨front, sel, back, n, r', rfl, hn, hfront, hsel⟩ := h
  exact ⟨.newAxis :: front, sel, back, n, r', rfl, hn, hfront, hsel⟩

/-- The loop stops behind a selector that is applied to an axis. -/
theorem cons {r₁ : Selection} (htakes : sel.takesAxis = true)
    (happly : applySelector r axis n sel = .ok r₁) (h : StopsWith e r₁ (axis + 1) ss sizes) :
    StopsWith e r axis (sel :: ss) (n :: sizes) := by
  obtain ⟨front, sel', back, m, r', rfl, hm, hfront, hsel'⟩ := h
  refine ⟨sel :: front, sel', back, m, r', rfl, ?_⟩
  have haxis : axis + (front.countP takesAxis + 1) = axis + 1 + front.countP takesAxis := by
    omega
  rw [List.countP_cons_of_pos htakes, List.getElem?_cons_succ, List.take_succ_cons,
    applySelectors_cons (Selector.ne_of_takesAxis htakes).2, happly, haxis]
  exact ⟨hm, hfront, hsel'⟩

/-- Where the loop stops, it has the error of the selector there. -/
theorem applySelectors_eq (hss : Selector.ellipsis ∉ ss) (h : StopsWith e r axis ss sizes) :
    applySelectors r axis ss sizes = .error e := by
  obtain ⟨front, sel, back, n, r', rfl, hn, hfront, hsel⟩ := h
  have hnone : .ellipsis ∉ front := fun hmem => hss (List.mem_append_left _ hmem)
  obtain ⟨hlt, rfl⟩ := List.getElem?_eq_some_iff.mp hn
  have hlength : (sizes.take (front.countP takesAxis)).length = front.countP takesAxis :=
    List.length_take_of_le (Nat.le_of_lt hlt)
  obtain ⟨-, hnewAxis⟩ := Selector.ne_of_takesAxis (takesAxis_and_ne_full_of_error hsel).1
  rw [← List.take_append_drop (front.countP takesAxis) sizes,
    applySelectors_append_bind hnone hlength.symm, hlength, hfront, List.drop_eq_getElem_cons hlt]
  change applySelectors r' _ _ _ = _
  rw [applySelectors_cons hnewAxis, hsel]
  rfl

end StopsWith

/-- **The loop fails where it stops**, if there are enough axes; by induction on the selectors. -/
theorem applySelectors_eq_error_iff (hss : .ellipsis ∉ ss)
    (htaken : ss.countP takesAxis ≤ sizes.length) :
    applySelectors r axis ss sizes = .error e ↔ StopsWith e r axis ss sizes := by
  refine ⟨fun h => ?_, fun h => h.applySelectors_eq hss⟩
  induction ss generalizing r axis sizes with
  | nil => cases h
  | cons t ss ih =>
    have ht : t ≠ .ellipsis := (List.ne_of_not_mem_cons hss).symm
    have hrest : .ellipsis ∉ ss := List.not_mem_of_not_mem_cons hss
    by_cases hnewAxis : t = .newAxis
    · subst hnewAxis
      exact .newAxis (ih hrest htaken h)
    · have htakes := Selector.takesAxis_of_ne ht hnewAxis
      rw [List.countP_cons_of_pos htakes] at htaken
      cases sizes with
      | nil => cases htaken
      | cons n sizes =>
        rw [applySelectors_cons hnewAxis] at h
        obtain happly | ⟨r₁, happly, h⟩ := bind_eq_error_iff.mp h
        · exact .head happly
        · exact .cons htakes happly (ih hrest (Nat.le_of_succ_le_succ htaken) h)

/-! ### The index -/

theorem count_ellipsis_le_of_append (h : (front ++ sel :: back).count .ellipsis ≤ 1) :
    front.count .ellipsis ≤ 1 := by
  rw [List.count_append] at h
  omega

theorem countP_expand_eq_axisBetween :
    (expand (s.unselected (front ++ sel :: back)) front).countP takesAxis =
      s.axisBetween front sel back :=
  Selector.countP_takesAxis_expand

/-- The selectors in front of an axis are expanded to the axes in front of it. -/
theorem runSelectors_take (hellipses : front.count .ellipsis ≤ 1)
    (hrank : s.axisBetween front sel back ≤ s.rank) :
    runSelectors (s.take (s.axisBetween front sel back)) front =
      applySelectors ⟨[], none⟩ 0 (expand (s.unselected (front ++ sel :: back)) front)
        (s.take (s.axisBetween front sel back)) := by
  rw [runSelectors, unselected]
  have hlength : rank (s.take (s.axisBetween front sel back)) = s.axisBetween front sel back :=
    List.length_take_of_le hrank
  rw [hlength]
  by_cases hnone : front.count .ellipsis = 0
  · have hmem : .ellipsis ∉ front := List.count_eq_zero.mp hnone
    rw [Selector.expand_eq_self hmem, Selector.expand_eq_self hmem]
  · have hone : front.count .ellipsis = 1 := by omega
    rw [axisBetween, hone, Nat.one_mul, Nat.add_sub_cancel_left]

/-- **Where an index stops.** The selectors in front are an index of the axes in front that
succeeds, and the selector behind them cannot be applied to the next axis. -/
theorem runSelectors_eq_error_iff (hellipses : sels.count .ellipsis ≤ 1)
    (htaken : sels.countP takesAxis ≤ s.rank) :
    s.runSelectors sels = .error e ↔
      ∃ front sel back n r, sels = front ++ sel :: back ∧
        s[s.axisBetween front sel back]? = some n ∧
        runSelectors (s.take (s.axisBetween front sel back)) front = .ok r ∧
        applySelector r (s.axisBetween front sel back) n sel = .error e := by
  have hnone : .ellipsis ∉ expand (s.unselected sels) sels :=
    fun hmem => Selector.ne_ellipsis_of_mem_expand _ hmem rfl
  rw [runSelectors, applySelectors_eq_error_iff hnone (countP_expand_le hellipses htaken)]
  constructor
  · rintro ⟨front', sel, back', n, r, hexpand, hn, hfront, hsel⟩
    obtain ⟨front, back, rfl, rfl⟩ :=
      Selector.exists_append_cons_of_expand (takesAxis_and_ne_full_of_error hsel).2 hexpand
    rw [countP_expand_eq_axisBetween] at hn hfront hsel
    rw [Nat.zero_add] at hsel
    have hrank : s.axisBetween front sel back ≤ s.rank :=
      Nat.le_of_lt (List.getElem?_eq_some_iff.mp hn).1
    refine ⟨front, sel, back, n, r, rfl, hn, ?_, hsel⟩
    rw [runSelectors_take (count_ellipsis_le_of_append hellipses) hrank, hfront]
  · rintro ⟨front, sel, back, n, r, rfl, hn, hfront, hsel⟩
    have hrank : s.axisBetween front sel back ≤ s.rank :=
      Nat.le_of_lt (List.getElem?_eq_some_iff.mp hn).1
    rw [runSelectors_take (count_ellipsis_le_of_append hellipses) hrank] at hfront
    have hne := (Selector.ne_of_takesAxis (takesAxis_and_ne_full_of_error hsel).1).1
    have hexpand (fill : Nat) :
        expand fill (front ++ sel :: back) = expand fill front ++ sel :: expand fill back := by
      rw [Selector.expand_append, Selector.expand_cons hne]
    rw [← countP_expand_eq_axisBetween] at hn hfront hsel
    rw [← Nat.zero_add (List.countP _ _)] at hsel
    exact ⟨_, sel, _, n, r, hexpand _, hn, hfront, hsel⟩

/-- **A position outside of its axis** is reported with the number of the axis and its size, if the
selectors in front of it succeed on the axes in front of that one. -/
theorem index_eq_indexOutOfBounds_iff (hs : ∀ n ∈ s, n < Word.half) {i : Int} {a : Nat} :
    index s sels = .error (.indexOutOfBounds i a n) ↔
      sels.count .ellipsis ≤ 1 ∧ sels.countP takesAxis ≤ s.rank ∧
        ∃ front back o, sels = front ++ .int i :: back ∧ a = s.axisBetween front (.int i) back ∧
          s[a]? = some n ∧ ¬(-n ≤ i ∧ i < n) ∧ index (s.take a) front = .ok o := by
  constructor
  · intro h
    obtain ⟨-, he⟩ | ⟨-, -, he⟩ | ⟨hellipses, htaken, hrun⟩ := index_eq_error_iff.mp h
    · cases he
    · cases he
    refine ⟨hellipses, htaken, ?_⟩
    obtain ⟨front, sel, back, m, r, rfl, hm, hfront, hsel⟩ :=
      (runSelectors_eq_error_iff hellipses htaken).mp hrun
    have hword : m < Word.half := hs m (List.mem_of_getElem? hm)
    obtain ⟨j, rfl, hj, he⟩ | ⟨sl, rfl, -, he⟩ | ⟨t, left, right, rfl, he⟩ :=
      applySelector_eq_error_cases hword hsel
    · obtain ⟨rfl, rfl, rfl⟩ := ShapeError.indexOutOfBounds.inj he
      have hrank := (List.getElem?_eq_some_iff.mp hm).1
      refine ⟨front, back, r.shape, rfl, rfl, hm, hj, index_eq_ok_iff_runSelectors.mpr
        ⟨count_ellipsis_le_of_append hellipses, ?_, r, hfront, rfl⟩⟩
      rw [rank, List.length_take_of_le (Nat.le_of_lt hrank)]
      exact Nat.le_add_right _ _
    · cases he
    · cases he
  · rintro ⟨hellipses, htaken, front, back, o, rfl, rfl, hn, hi, hfront⟩
    obtain ⟨-, -, r, hr, -⟩ := index_eq_ok_iff_runSelectors.mp hfront
    refine index_eq_error_iff.mpr (Or.inr (Or.inr ⟨hellipses, htaken, ?_⟩))
    refine (runSelectors_eq_error_iff hellipses htaken).mpr
      ⟨front, .int i, back, n, r, rfl, hn, hr, ?_⟩
    rw [applySelector_int (hs n (List.mem_of_getElem? hn)), if_neg hi]

/-- Too many selectors are reported only if there are more of them than axes. -/
theorem index_eq_tooManyIndices_iff (hs : ∀ n ∈ s, n < Word.half) {a b : Nat} :
    index s sels = .error (.tooManyIndices a b) ↔
      sels.count .ellipsis ≤ 1 ∧ a = s.rank ∧ b = sels.countP takesAxis ∧ a < b := by
  constructor
  · intro h
    obtain ⟨-, he⟩ | ⟨hellipses, hmany, he⟩ | ⟨hellipses, htaken, hrun⟩ := index_eq_error_iff.mp h
    · cases he
    · obtain ⟨rfl, rfl⟩ := ShapeError.tooManyIndices.inj he
      exact ⟨hellipses, rfl, rfl, hmany⟩
    · -- the loop stops for other reasons
      obtain ⟨front, sel, back, m, r, rfl, hm, -, hsel⟩ :=
        (runSelectors_eq_error_iff hellipses htaken).mp hrun
      obtain ⟨i, rfl, -, he⟩ | ⟨sl, rfl, -, he⟩ | ⟨t, left, right, rfl, he⟩ :=
        applySelector_eq_error_cases (hs m (List.mem_of_getElem? hm)) hsel
      all_goals cases he
  · rintro ⟨hellipses, rfl, rfl, hmany⟩
    exact index_eq_tooManyIndices hellipses hmany

/-! ### No axis is missing -/

/-- The loop over the selectors with another answer where a selector finds no axis. -/
def applySelectorsOr (fallback : Except ShapeError Selection) (r : Selection) (axis : Nat) :
    List Selector → (sizes : Shape) → Except ShapeError Selection
  | [], sizes => .ok ⟨r.sizes ++ sizes, r.arrays⟩
  | .newAxis :: ss, sizes => applySelectorsOr fallback (r.push 1) axis ss sizes
  | s :: ss, n :: sizes => do
    let r ← applySelector r axis n s
    applySelectorsOr fallback r (axis + 1) ss sizes
  | _ :: _, [] => fallback

theorem applySelectorsOr_cons {fallback : Except ShapeError Selection} (h : sel ≠ .newAxis) :
    applySelectorsOr fallback r axis (sel :: ss) (n :: sizes) =
      applySelector r axis n sel >>= fun r => applySelectorsOr fallback r (axis + 1) ss sizes := by
  cases sel <;> first | rfl | exact absurd rfl h

/-- An index with this loop. -/
def indexOr (fallback : Except ShapeError Selection) (s : Shape) (selectors : List Selector) :
    Except ShapeError Shape :=
  let taken := selectors.countP takesAxis
  if 1 < selectors.count .ellipsis then .error .manyEllipses
  else if s.rank < taken then .error (.tooManyIndices s.rank taken)
  else do
    let r ← applySelectorsOr fallback ⟨[], none⟩ 0 (expand (s.rank - taken) selectors) s
    .ok r.shape

/-- With enough axes the other answer is never given. -/
theorem applySelectorsOr_eq (fallback : Except ShapeError Selection)
    (hss : Selector.ellipsis ∉ ss) (htaken : ss.countP takesAxis ≤ sizes.length) :
    applySelectorsOr fallback r axis ss sizes = applySelectors r axis ss sizes := by
  induction ss generalizing r axis sizes with
  | nil => rfl
  | cons t ss ih =>
    have ht : t ≠ .ellipsis := (List.ne_of_not_mem_cons hss).symm
    have hrest : .ellipsis ∉ ss := List.not_mem_of_not_mem_cons hss
    by_cases hnewAxis : t = .newAxis
    · subst hnewAxis
      exact ih hrest htaken
    · rw [List.countP_cons_of_pos (Selector.takesAxis_of_ne ht hnewAxis)] at htaken
      cases sizes with
      | nil => cases htaken
      | cons n sizes =>
        rw [applySelectors_cons hnewAxis, applySelectorsOr_cons hnewAxis]
        exact bind_congr fun r => ih hrest (Nat.le_of_succ_le_succ htaken)

/-- **No selector is without an axis**: what the loop does with one that finds none is of no
matter. -/
theorem indexOr_eq_index (fallback : Except ShapeError Selection) :
    indexOr fallback s sels = index s sels := by
  rcases Nat.lt_or_ge 1 (sels.count .ellipsis) with hellipses | hellipses
  · rw [indexOr, index, if_pos hellipses, if_pos hellipses]
  rcases Nat.lt_or_ge s.rank (sels.countP takesAxis) with htaken | htaken
  · rw [indexOr, index, if_neg (Nat.not_lt.mpr hellipses), if_pos htaken,
      if_neg (Nat.not_lt.mpr hellipses), if_pos htaken]
  have hnone : .ellipsis ∉ expand (s.unselected sels) sels :=
    fun hmem => Selector.ne_ellipsis_of_mem_expand _ hmem rfl
  have hloop : applySelectorsOr fallback ⟨[], none⟩ 0
      (expand (s.rank - sels.countP takesAxis) sels) s = s.runSelectors sels :=
    applySelectorsOr_eq fallback hnone (countP_expand_le hellipses htaken)
  rw [indexOr, hloop]
  rfl

end Shape

end ShapeFault
