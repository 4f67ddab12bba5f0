import ShapeFault.Proofs.Shape.WordSlice
import ShapeFault.Shape.Index

/-!
# Selectors and their axes

`Selector.assign` gives each selector of an index its axis, from left to right. A selector has to
fit its axis (`Selector.Fits`) and makes axes of its own out of it (`Selector.axes`). The axes that
are made stand one after the other, with the joint shape of the arrays in the place of the first of
them (`Shape.arrange`). An ellipsis leaves nothing but full selectors, so the rank of what comes out
can be counted on the selectors as they are given (`Shape.rank_arrange_assigned`).
-/

namespace ShapeFault

/-! ### One selector -/

namespace Slice

/-- The number of positions that a slice selects; a step must not be zero. -/
def length (s : Slice) (size : Nat) : Nat :=
  (s.count size).toOption.getD 0

theorem length_of_count {s : Slice} {size n : Nat} (h : s.count size = .ok n) :
    s.length size = n := by
  rw [length, h]
  rfl

theorem length_le {size : Nat} (hsize : size < Word.half) (s : Slice) : s.length size ≤ size := by
  by_cases hstep : s.step = some 0
  · rw [length, count_of_step_eq_zero hstep]
    exact Nat.zero_le size
  · rw [length_of_count (count_of_step_ne_zero hsize hstep)]
    exact s.count_le size

end Slice

namespace Selector

def isInt : Selector → Bool
  | int _ => true
  | _ => false

/-- The shape of an array of positions. -/
def array? : Selector → Option Shape
  | array s => some s
  | _ => none

def isArray (s : Selector) : Bool :=
  s.array?.isSome

/-- Whether the selector can be applied to an axis of a size. -/
def Fits (size : Nat) : Selector → Prop
  | int i => -size ≤ i ∧ i < size
  | slice s => s.step ≠ some 0
  | full | ellipsis | newAxis | array _ => True

/-- The axes that the selector makes of one of a size. An array makes none by itself. -/
def axes (size : Nat) : Selector → Shape
  | slice s => [s.length size]
  | full => [size]
  | newAxis => [1]
  | int _ | ellipsis | array _ => []

theorem axes_of_array? {sel : Selector} {s : Shape} (h : sel.array? = some s) (n : Nat) :
    sel.axes n = [] := by
  cases sel <;> cases h
  rfl

/-- The axes of a selector, and what it takes away, count against the axis that it takes and the one
that it inserts. -/
theorem length_axes (s : Selector) (n : Nat) :
    (s.axes n).length + (if s.isInt then 1 else 0) + (if s.isArray then 1 else 0) =
      (if s.takesAxis then 1 else 0) + if s == newAxis then 1 else 0 := by
  cases s <;> rfl

/-- Whether the selector can be applied to an axis of any size. A slice of an axis that no word with
a sign counts may have no number of positions. -/
def Applies (size : Nat) : Selector → Prop
  | int i => -size ≤ i ∧ i < size
  | slice s => ∃ n, s.count size = .ok n
  | full | ellipsis | newAxis | array _ => True

/-- A slice can be applied to an axis that is counted unless its step is zero. -/
theorem applies_iff_fits {s : Selector} {n : Nat} (hn : n < Word.half) :
    s.Applies n ↔ s.Fits n := by
  cases s with
  | slice sl =>
    change (∃ m, sl.count n = .ok m) ↔ sl.step ≠ some 0
    constructor
    · rintro ⟨m, h⟩ hstep
      rw [Slice.count_of_step_eq_zero hstep] at h
      cases h
    · exact fun hstep => ⟨_, Slice.count_of_step_ne_zero hn hstep⟩
  | _ => exact Iff.rfl

theorem axes_le {s : Selector} {n : Nat} (hn : n < Word.half) (hs : s.takesAxis) :
    ∀ k ∈ s.axes n, k ≤ n := by
  cases s with
  | slice sl => exact List.forall_mem_singleton.mpr (sl.length_le hn)
  | full => exact List.forall_mem_singleton.mpr (Nat.le_refl n)
  | newAxis => cases hs
  | _ => nofun

/-! ### All selectors -/

/-- Each selector with the size of its axis. The axes are given out from left to right, those behind
the last selector to full ones. A new axis uses none of them and has the size one, as has a selector
for which no axis is left. -/
def assign : List Selector → Shape → List (Selector × Nat)
  | [], sizes => sizes.map (full, ·)
  | newAxis :: ss, sizes => (newAxis, 1) :: assign ss sizes
  | s :: ss, n :: sizes => (s, n) :: assign ss sizes
  | s :: ss, [] => (s, 1) :: assign ss []

variable {fill : Nat} {ss : List Selector}

theorem takesAxis_of_ne {s : Selector} (hellipsis : s ≠ ellipsis) (hnewAxis : s ≠ newAxis) :
    s.takesAxis = true := by
  cases s <;> first | rfl | exact absurd rfl hellipsis | exact absurd rfl hnewAxis

theorem expand_ellipsis_cons :
    expand fill (ellipsis :: ss) = List.replicate fill full ++ expand fill ss :=
  List.flatMap_cons

theorem expand_cons {s : Selector} (h : s ≠ ellipsis) :
    expand fill (s :: ss) = s :: expand fill ss := by
  cases s <;> first | rfl | exact absurd rfl h

theorem ne_ellipsis_of_mem_expand : ∀ s ∈ expand fill ss, s ≠ ellipsis := by
  intro s hs
  obtain ⟨t, -, ht⟩ := List.mem_flatMap.mp hs
  split at ht
  · rw [List.eq_of_mem_replicate ht]
    nofun
  · next hne => exact List.mem_singleton.mp ht ▸ hne

/-- An ellipsis leaves nothing but full selectors. -/
theorem filter_expand {q : Selector → Bool} (hfull : q full = false)
    (hellipsis : q ellipsis = false) : (expand fill ss).filter q = ss.filter q := by
  induction ss with
  | nil => rfl
  | cons s ss ih =>
    by_cases hs : s = ellipsis
    · subst hs
      rw [expand_ellipsis_cons, List.filter_append, List.filter_replicate, ih]
      simp [hfull, hellipsis]
    · rw [expand_cons hs, List.filter_cons, List.filter_cons, ih]

theorem countP_takesAxis_expand :
    (expand fill ss).countP takesAxis = ss.countP takesAxis + ss.count ellipsis * fill := by
  induction ss with
  | nil => simp [expand]
  | cons s ss ih =>
    by_cases hs : s = ellipsis
    · subst hs
      have hfull : full.takesAxis = true := rfl
      rw [expand_ellipsis_cons, List.countP_append, List.countP_replicate, if_pos hfull, ih,
        List.countP_cons_of_neg Bool.false_ne_true, List.count_cons_self, Nat.succ_mul]
      omega
    · rw [expand_cons hs, List.countP_cons, List.countP_cons, List.count_cons_of_ne hs, ih]
      omega

/-- Nothing is added to the selectors but full ones. -/
theorem filter_assign {q : Selector → Bool} (hfull : q full = false) (ns : Shape) :
    ((assign ss ns).map Prod.fst).filter q = ss.filter q := by
  fun_induction assign ss ns with
  | case1 ns => simp [hfull]
  | case2 ns ss ih | case3 s ss n ns hs ih | case4 s ss hs ih =>
    rw [List.map_cons, List.filter_cons, List.filter_cons, ih]

/-- A selector gets an axis, or the size one. -/
theorem snd_mem_or_eq_one_of_mem_assign {ns : Shape} :
    ∀ {p : Selector × Nat}, p ∈ assign ss ns → p.2 ∈ ns ∨ p.2 = 1 := by
  fun_induction assign ss ns with
  | case1 ns =>
    intro p hp
    obtain ⟨n, hn, rfl⟩ := List.mem_map.mp hp
    exact Or.inl hn
  | case2 ns ss ih | case4 s ss hs ih =>
    intro p hp
    rcases List.mem_cons.mp hp with rfl | hp
    · exact Or.inr rfl
    · exact ih hp
  | case3 s ss n ns hs ih =>
    intro p hp
    rcases List.mem_cons.mp hp with rfl | hp
    · exact Or.inl List.mem_cons_self
    · exact (ih hp).imp_left (List.mem_cons_of_mem n)

/-- **Every axis is given out once**, in its turn. -/
theorem sizes_assign {ns : Shape} (hellipsis : ∀ s ∈ ss, s ≠ ellipsis)
    (hns : ss.countP takesAxis ≤ ns.length) :
    ((assign ss ns).filter (·.1.takesAxis)).map Prod.snd = ns := by
  fun_induction assign ss ns with
  | case1 ns =>
    rw [List.filter_eq_self.mpr (List.forall_mem_map.mpr fun _ _ => rfl), List.map_map]
    exact List.map_id ns
  | case2 ns ss ih =>
    exact ih (List.forall_mem_cons.mp hellipsis).2 hns
  | case3 s ss n ns hs ih =>
    obtain ⟨hs', hellipsis⟩ := List.forall_mem_cons.mp hellipsis
    have htakes : s.takesAxis = true := takesAxis_of_ne hs' hs
    rw [List.countP_cons_of_pos htakes, List.length_cons] at hns
    rw [List.filter_cons, if_pos htakes, List.map_cons, ih hellipsis (by omega)]
  | case4 s ss hs ih =>
    -- a selector that is left takes an axis, but there are no more
    obtain ⟨hs', -⟩ := List.forall_mem_cons.mp hellipsis
    rw [List.countP_cons_of_pos (takesAxis_of_ne hs' hs)] at hns
    cases hns

end Selector

/-! ### Arranged axes -/

namespace Shape

/-- The axes that selectors make one after the other. -/
def keptAxes (ps : List (Selector × Nat)) : Shape :=
  ps.flatMap fun p => p.1.axes p.2

/-- The axes that selectors make, with the joint shape of the arrays in the place of the first. -/
def arrange (joint : Shape) (ps : List (Selector × Nat)) : Shape :=
  keptAxes (ps.takeWhile (!·.1.isArray)) ++ joint ++ keptAxes (ps.dropWhile (!·.1.isArray))

section Arrange

variable {joint : Shape} {p : Selector × Nat} {ps : List (Selector × Nat)}

theorem keptAxes_cons : keptAxes (p :: ps) = p.1.axes p.2 ++ keptAxes ps :=
  List.flatMap_cons

theorem arrange_nil (joint : Shape) : arrange joint [] = joint :=
  List.append_nil joint

theorem keptAxes_cons_of_array {s : Shape} (h : p.1.array? = some s) :
    keptAxes (p :: ps) = keptAxes ps := by
  rw [keptAxes_cons, Selector.axes_of_array? h, List.nil_append]

theorem arrange_cons_of_array {s : Shape} (h : p.1.array? = some s) :
    arrange joint (p :: ps) = joint ++ keptAxes ps := by
  have hp : p.1.isArray = true := by simp [Selector.isArray, h]
  rw [← keptAxes_cons_of_array h]
  simp [arrange, hp, keptAxes]

theorem arrange_cons_of_not_array (h : p.1.array? = none) :
    arrange joint (p :: ps) = p.1.axes p.2 ++ arrange joint ps := by
  have hp : p.1.isArray = false := by simp [Selector.isArray, h]
  simp [arrange, hp, keptAxes]

/-- The joint shape stands among the axes that are made one after the other. -/
theorem rank_arrange : rank (arrange joint ps) = rank (keptAxes ps) + rank joint := by
  have hsplit : keptAxes ps = keptAxes (ps.takeWhile (!·.1.isArray)) ++
      keptAxes (ps.dropWhile (!·.1.isArray)) := by
    simp only [keptAxes, ← List.flatMap_append, List.takeWhile_append_dropWhile]
  simp only [hsplit, arrange, rank, List.length_append]
  omega

end Arrange

/-- The selectors of an index, with an ellipsis expanded to the axes that are left for it, each with
the size of its axis. -/
def assigned (s : Shape) (selectors : List Selector) : List (Selector × Nat) :=
  Selector.assign (Selector.expand (s.rank - selectors.countP Selector.takesAxis) selectors) s

variable {s : Shape} {sels : List Selector}

theorem filter_assigned {q : Selector → Bool} (hfull : q .full = false)
    (hellipsis : q .ellipsis = false) :
    ((s.assigned sels).map Prod.fst).filter q = sels.filter q :=
  (Selector.filter_assign hfull s).trans (Selector.filter_expand hfull hellipsis)

/-- What is counted of the selectors of an index can be counted of the assigned ones. -/
theorem countP_assigned {q : Selector → Bool} (hfull : q .full = false)
    (hellipsis : q .ellipsis = false) :
    ((s.assigned sels).map Prod.fst).countP q = sels.countP q := by
  rw [List.countP_eq_length_filter, filter_assigned hfull hellipsis, List.countP_eq_length_filter]

theorem arrays_assigned :
    (s.assigned sels).filterMap (·.1.array?) = sels.filterMap Selector.array? := by
  have hfilter (ss : List Selector) :
      ss.filterMap Selector.array? = (ss.filter Selector.isArray).filterMap Selector.array? := by
    rw [List.filterMap_filter]
    refine congrArg (List.filterMap · ss) (funext fun sel => ?_)
    cases sel <;> rfl
  rw [hfilter sels, ← @filter_assigned s sels Selector.isArray rfl rfl, ← hfilter,
    List.filterMap_map]
  rfl

/-- The one ellipsis fills up the axes exactly, and without one there are not too many selectors. -/
theorem countP_expand_le (hellipses : sels.count .ellipsis ≤ 1)
    (htaken : sels.countP Selector.takesAxis ≤ s.rank) :
    (Selector.expand (s.rank - sels.countP Selector.takesAxis) sels).countP Selector.takesAxis ≤
      s.length := by
  have hfill := Nat.mul_le_mul_right (s.rank - sels.countP Selector.takesAxis) hellipses
  rw [Selector.countP_takesAxis_expand]
  simp only [rank] at *
  omega

theorem sizes_assigned (hellipses : sels.count .ellipsis ≤ 1)
    (htaken : sels.countP Selector.takesAxis ≤ s.rank) :
    ((s.assigned sels).filter (·.1.takesAxis)).map Prod.snd = s :=
  Selector.sizes_assign Selector.ne_ellipsis_of_mem_expand (countP_expand_le hellipses htaken)

/-- The axes that selectors make, counted by the kinds of the selectors. -/
theorem rank_keptAxes (ps : List (Selector × Nat)) :
    rank (keptAxes ps) + (ps.map Prod.fst).countP Selector.isInt +
      (ps.map Prod.fst).countP Selector.isArray =
        (ps.map Prod.fst).countP Selector.takesAxis + (ps.map Prod.fst).count .newAxis := by
  induction ps with
  | nil => rfl
  | cons p ps ih =>
    have haxes := p.1.length_axes p.2
    simp only [keptAxes_cons, rank, List.length_append, List.map_cons, List.countP_cons,
      List.count_cons] at ih ⊢
    omega

/-- The rank of the arranged axes of an index, counted by the kinds of its selectors. -/
theorem rank_arrange_assigned (hellipses : sels.count .ellipsis ≤ 1)
    (htaken : sels.countP Selector.takesAxis ≤ s.rank) (joint : Shape) :
    rank (arrange joint (s.assigned sels)) + sels.countP Selector.isInt +
      sels.countP Selector.isArray = s.rank + sels.count .newAxis + joint.rank := by
  have hkept := rank_keptAxes (s.assigned sels)
  have hint := @countP_assigned s sels Selector.isInt rfl rfl
  have harray := @countP_assigned s sels Selector.isArray rfl rfl
  have hnew : ((s.assigned sels).map Prod.fst).count .newAxis = sels.count .newAxis :=
    @countP_assigned s sels (· == .newAxis) rfl rfl
  -- an ellipsis is expanded to selectors that take axes, so these are counted on the axes
  have htakes : ((s.assigned sels).map Prod.fst).countP Selector.takesAxis = s.rank := by
    rw [List.countP_map, List.countP_eq_length_filter]
    exact (List.length_map Prod.snd).symm.trans
      (congrArg List.length (sizes_assigned hellipses htaken))
  rw [rank_arrange]
  omega

end Shape

end ShapeFault
