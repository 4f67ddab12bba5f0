import Mathlib.Logic.Relation
import ShapeFault.Proofs.Shape.Assignment
import ShapeFault.Proofs.Shape.Grouping
import ShapeFault.Proofs.Shape.Index

/-!
# Spellings of an index

Many lists of selectors say the same of a shape. An ellipsis can be written out as the full
selectors it stands for, and one that stands for nothing but the axes behind the last selector can
be added; a full selector is a slice without bounds; an integer can be counted from the other end of
its axis. Each of these changes is a constructor of `Respells`, and it changes neither the shape
that an index gives nor the error (`Respells.index_eq`). Besides, an integer in front can be split
off into an index of its own (`index_int_cons_eq_ok_iff`).

The loop over the selectors reads them from left to right, so a change behind some of them is seen
from the axes that these leave only (`applySelectors_append`).
-/

namespace ShapeFault

/-- The slice of all positions. -/
def Slice.whole : Slice :=
  ⟨none, none, none⟩

theorem Slice.count_whole {n : Nat} (hn : n < Word.half) : whole.count n = .ok n := by
  have hstep : whole.step ≠ some 0 := by decide
  have hwalk : whole.walk n = ⟨0, n, 1⟩ := rfl
  rw [count_of_step_ne_zero hn hstep, hwalk, Walk.count_of_step_one, Int.sub_zero,
    Int.toNat_natCast]

namespace Selector

variable {fill : Nat} {ss ts : List Selector}

theorem expand_append : expand fill (ss ++ ts) = expand fill ss ++ expand fill ts :=
  List.flatMap_append

theorem expand_eq_self (h : ellipsis ∉ ss) : expand fill ss = ss := by
  induction ss with
  | nil => rfl
  | cons s ss ih =>
    have hs : s ≠ ellipsis := (List.ne_of_not_mem_cons h).symm
    rw [expand_cons hs, ih (List.not_mem_of_not_mem_cons h)]

theorem ne_of_takesAxis {s : Selector} (h : s.takesAxis = true) : s ≠ ellipsis ∧ s ≠ newAxis := by
  constructor <;> rintro rfl <;> cases h

end Selector

namespace Shape

open Selector (expand takesAxis)

variable {s sizes : Shape} {n : Nat} {r : Selection} {axis : Nat}
  {sel sel' : Selector} {sels sels' front back back' rest : List Selector}

/-! ### The loop behind some selectors -/

theorem applySelectors_nil_nil : applySelectors r axis [] [] = .ok r := by
  rw [applySelectors, List.append_nil]

theorem applySelectors_cons (h : sel ≠ .newAxis) :
    applySelectors r axis (sel :: rest) (n :: sizes) =
      applySelector r axis n sel >>= fun r => applySelectors r (axis + 1) rest sizes := by
  cases sel <;> first | rfl | exact absurd rfl h

theorem applySelectors_cons_nil (h : sel ≠ .newAxis) :
    applySelectors r axis (sel :: rest) [] =
      applySelector r axis 1 sel >>= fun r => applySelectors r axis rest [] := by
  cases sel <;> first | rfl | exact absurd rfl h

theorem applySelectors_cons_congr (hsel : sel ≠ .newAxis) (hsel' : sel' ≠ .newAxis)
    (h : applySelector r axis (sizes.headD 1) sel' = applySelector r axis (sizes.headD 1) sel) :
    applySelectors r axis (sel' :: rest) sizes = applySelectors r axis (sel :: rest) sizes := by
  cases sizes with
  | nil =>
    have h : applySelector r axis 1 sel' = applySelector r axis 1 sel := h
    rw [applySelectors_cons_nil hsel, applySelectors_cons_nil hsel', h]
  | cons n sizes =>
    have h : applySelector r axis n sel' = applySelector r axis n sel := h
    rw [applySelectors_cons hsel, applySelectors_cons hsel', h]

/-- **A change behind some selectors** is seen from the axes that these leave. -/
theorem applySelectors_append (hfront : .ellipsis ∉ front)
    (h : ∀ r axis, applySelectors r axis back (sizes.drop (front.countP takesAxis)) =
      applySelectors r axis back' (sizes.drop (front.countP takesAxis))) :
    applySelectors r axis (front ++ back) sizes = applySelectors r axis (front ++ back') sizes := by
  -- Both loops do the same to the selection until `front` is used up, so that it is whatever it is
  -- by then: the assumption is about every selection and every axis.
  induction front generalizing r axis sizes with
  | nil => exact h r axis
  | cons t front ih =>
    have ht : t ≠ .ellipsis := (List.ne_of_not_mem_cons hfront).symm
    have hrest : .ellipsis ∉ front := List.not_mem_of_not_mem_cons hfront
    rw [List.cons_append, List.cons_append]
    by_cases hnewAxis : t = .newAxis
    · subst hnewAxis
      rw [List.countP_cons_of_neg Bool.false_ne_true] at h
      exact ih hrest h
    · rw [List.countP_cons_of_pos (Selector.takesAxis_of_ne ht hnewAxis)] at h
      cases sizes with
      | nil =>
        -- no axis is left to drop, here and behind this selector
        rw [applySelectors_cons_nil hnewAxis, applySelectors_cons_nil hnewAxis]
        refine bind_congr fun r => ih hrest ?_
        simpa using h
      | cons n sizes =>
        rw [applySelectors_cons hnewAxis, applySelectors_cons hnewAxis]
        exact bind_congr fun r => ih hrest h

/-- **The loop goes on behind some selectors** with the axes that these leave to it. -/
theorem applySelectors_append_bind {taken : Shape} (hfront : .ellipsis ∉ front)
    (htaken : front.countP takesAxis = taken.length) :
    applySelectors r axis (front ++ back) (taken ++ sizes) =
      applySelectors r axis front taken >>= fun r =>
        applySelectors r (axis + taken.length) back sizes := by
  induction front generalizing r axis taken with
  | nil =>
    obtain rfl := List.length_eq_zero_iff.mp htaken.symm
    rw [applySelectors_nil_nil]
    rfl
  | cons t front ih =>
    have ht : t ≠ .ellipsis := (List.ne_of_not_mem_cons hfront).symm
    have hrest : .ellipsis ∉ front := List.not_mem_of_not_mem_cons hfront
    by_cases hnewAxis : t = .newAxis
    · subst hnewAxis
      rw [List.countP_cons_of_neg Bool.false_ne_true] at htaken
      exact ih hrest htaken
    · rw [List.countP_cons_of_pos (Selector.takesAxis_of_ne ht hnewAxis)] at htaken
      obtain ⟨n, taken, rfl⟩ := List.exists_cons_of_length_eq_add_one htaken.symm
      rw [List.length_cons, Nat.add_right_cancel_iff] at htaken
      rw [List.cons_append, List.cons_append, applySelectors_cons hnewAxis,
        applySelectors_cons hnewAxis, bind_assoc]
      refine bind_congr fun r => ?_
      rw [ih hrest htaken, List.length_cons, Nat.add_assoc, Nat.add_comm 1]

/-- Full selectors for all axes that are left keep them as they are. -/
theorem applySelectors_full : applySelectors r axis (List.replicate sizes.length .full) sizes =
    .ok ⟨r.sizes ++ sizes, r.arrays⟩ := by
  induction sizes generalizing r axis with
  | nil => rfl
  | cons n sizes ih =>
    rw [List.length_cons, List.replicate_succ, applySelectors_cons (by decide)]
    refine ih.trans ?_
    simp [Selection.push]

/-! ### One change of an index -/

/-- The number of the axis that a selector takes between `front` and `back`: the axes in front of it
are those that `front` takes, and the unselected ones if the ellipsis is there. -/
def axisBetween (s : Shape) (front : List Selector) (sel : Selector) (back : List Selector) : Nat :=
  front.countP takesAxis + front.count .ellipsis * s.unselected (front ++ sel :: back)

/-- `Respells s sels sels'` says that `sels'` is the index `sels` of a tensor of shape `s` in
another spelling: with one change at one place. -/
inductive Respells (s : Shape) : List Selector → List Selector → Prop
  /-- the ellipsis is written out as the full selectors it stands for -/
  | ellipsis (front back : List Selector) (hfront : .ellipsis ∉ front) (hback : .ellipsis ∉ back) :
    Respells s (front ++ .ellipsis :: back)
      (front ++ List.replicate (s.unselected (front ++ .ellipsis :: back)) .full ++ back)
  /-- an ellipsis is added at the end -/
  | appended (sels : List Selector) (h : .ellipsis ∉ sels) : Respells s sels (sels ++ [.ellipsis])
  /-- a full selector is written as a slice -/
  | full (front back : List Selector) :
    Respells s (front ++ .full :: back) (front ++ .slice .whole :: back)
  /-- an integer is counted from the end of its axis -/
  | int (front back : List Selector) (i : Int) (n : Nat)
    (hn : s[s.axisBetween front (.int i) back]? = some n) (hlow : 0 ≤ i) (hhigh : i < n) :
    Respells s (front ++ .int i :: back) (front ++ .int (i - n) :: back)

/-- Two indices with the same numbers of ellipses and of axes taken differ in their loops only. -/
theorem index_congr (hellipses : sels'.count .ellipsis = sels.count .ellipsis)
    (htaken : sels'.countP takesAxis = sels.countP takesAxis)
    (hrun : s.runSelectors sels' = s.runSelectors sels) : index s sels' = index s sels := by
  simp only [runSelectors, unselected, htaken] at hrun
  simp only [index, hellipses, htaken, hrun]

/-- A selector can be changed into one that does the same to its axis. -/
theorem index_append_cons (htakes : sel.takesAxis = true) (htakes' : sel'.takesAxis = true)
    (h : ∀ r axis, applySelector r axis (s.getD (s.axisBetween front sel back) 1) sel' =
      applySelector r axis (s.getD (s.axisBetween front sel back) 1) sel) :
    index s (front ++ sel' :: back) = index s (front ++ sel :: back) := by
  obtain ⟨hellipsis, hnewAxis⟩ := Selector.ne_of_takesAxis htakes
  obtain ⟨hellipsis', hnewAxis'⟩ := Selector.ne_of_takesAxis htakes'
  have htaken : (front ++ sel' :: back).countP takesAxis =
      (front ++ sel :: back).countP takesAxis := by
    rw [List.countP_append, List.countP_append, List.countP_cons_of_pos htakes,
      List.countP_cons_of_pos htakes']
  refine index_congr ?_ htaken ?_
  · rw [List.count_append, List.count_append, List.count_cons_of_ne hellipsis,
      List.count_cons_of_ne hellipsis']
  · rw [runSelectors, runSelectors, unselected, htaken, ← unselected, Selector.expand_append,
      Selector.expand_append, Selector.expand_cons hellipsis, Selector.expand_cons hellipsis']
    -- what the written out `front` takes is the number of the axis between `front` and `back`
    refine applySelectors_append (fun hmem => Selector.ne_ellipsis_of_mem_expand _ hmem rfl) ?_
    refine fun r axis => applySelectors_cons_congr hnewAxis hnewAxis' ?_
    rw [Selector.countP_takesAxis_expand, List.headD_eq_head?_getD, List.head?_drop,
      ← List.getD_eq_getElem?_getD]
    exact h r axis

/-- An ellipsis can be written out as the full selectors it stands for. -/
theorem index_append_replicate (hfront : .ellipsis ∉ front) (hback : .ellipsis ∉ back) :
    index s (front ++ List.replicate (s.unselected (front ++ .ellipsis :: back)) .full ++ back) =
      index s (front ++ .ellipsis :: back) := by
  generalize hsels : front ++ .ellipsis :: back = sels
  generalize hk : s.unselected sels = k
  generalize hwritten : front ++ List.replicate k .full ++ back = written
  have hmem : .ellipsis ∉ written := by
    simp [← hwritten, hfront, hback, List.mem_replicate]
  have hcount : sels.count .ellipsis = 1 := by
    rw [← hsels, List.count_append, List.count_cons_self, List.count_eq_zero.mpr hfront,
      List.count_eq_zero.mpr hback]
  have hcount' : written.count .ellipsis = 0 := List.count_eq_zero.mpr hmem
  have hexpand : expand k sels = written := by
    rw [← hsels, ← hwritten, Selector.expand_append, Selector.expand_ellipsis_cons,
      Selector.expand_eq_self hfront, Selector.expand_eq_self hback, List.append_assoc]
  have htaken : written.countP takesAxis = sels.countP takesAxis + k := by
    rw [← hexpand, Selector.countP_takesAxis_expand, hcount, Nat.one_mul]
  have hrank : k = s.rank - sels.countP takesAxis := hk.symm
  by_cases hmany : s.rank < sels.countP takesAxis
  · -- with too many selectors the ellipsis stands for nothing
    have hnone : k = 0 := by omega
    rw [index_eq_tooManyIndices (by omega) hmany, index_eq_tooManyIndices (by omega) (by omega),
      htaken, hnone, Nat.add_zero]
  · rw [index_eq_runSelectors (by omega) (by omega), index_eq_runSelectors (by omega) (by omega),
      runSelectors, runSelectors, hk, hexpand, Selector.expand_eq_self hmem]

/-- An ellipsis at the end stands for the axes that are kept without it. -/
theorem index_append_ellipsis (h : .ellipsis ∉ sels) :
    index s (sels ++ [Selector.ellipsis]) = index s sels := by
  have hcount : sels.count Selector.ellipsis = 0 := List.count_eq_zero.mpr h
  have hcount' : (sels ++ [Selector.ellipsis]).count Selector.ellipsis = 1 := by
    rw [List.count_append, hcount]
    rfl
  have htaken : (sels ++ [Selector.ellipsis]).countP takesAxis = sels.countP takesAxis :=
    List.countP_append
  have hlength : s.unselected sels = (s.drop (sels.countP takesAxis)).length :=
    List.length_drop.symm
  by_cases hmany : s.rank < sels.countP takesAxis
  · rw [index_eq_tooManyIndices (by omega) hmany, index_eq_tooManyIndices (by omega) (by omega),
      htaken]
  · have hrun : s.runSelectors (sels ++ [Selector.ellipsis]) = s.runSelectors (sels ++ []) := by
      rw [runSelectors, runSelectors, unselected, htaken, ← unselected, List.append_nil,
        Selector.expand_append, Selector.expand_eq_self h]
      refine (applySelectors_append h fun r axis => ?_).trans
        (congrArg (applySelectors _ _ · s) (List.append_nil sels))
      rw [Selector.expand_ellipsis_cons, hlength]
      exact (congrArg (applySelectors r axis · _) (List.append_nil _)).trans applySelectors_full
    rw [index_eq_runSelectors (by omega) (by omega), index_eq_runSelectors (by omega) (by omega),
      hrun, List.append_nil]

/-- **A change of spelling changes nothing**, neither the shape nor the error. -/
theorem Respells.index_eq (hs : ∀ n ∈ s, n < Word.half) (h : Respells s sels sels') :
    index s sels' = index s sels := by
  cases h with
  | ellipsis front back hfront hback => exact index_append_replicate hfront hback
  | appended sels h => exact index_append_ellipsis h
  | full front back =>
    have hword : s.getD (s.axisBetween front .full back) 1 < Word.half := by
      rw [List.getD_eq_getElem?_getD]
      cases hn : s[s.axisBetween front .full back]? with
      | none => decide
      | some n => exact hs n (List.mem_of_getElem? hn)
    refine index_append_cons rfl rfl fun r axis => ?_
    rw [applySelector_slice, Slice.count_whole hword]
    rfl
  | int front back i n hn hlow hhigh =>
    have hsize : s.getD (s.axisBetween front (.int i) back) 1 = n := by
      rw [List.getD_eq_getElem?_getD, hn, Option.getD_some]
    have hword : n < Word.half := hs n (List.mem_of_getElem? hn)
    refine index_append_cons rfl rfl fun r axis => ?_
    rw [hsize, applySelector_int hword, applySelector_int hword, if_pos (by omega),
      if_pos (by omega)]

/-! ### An integer in front -/

/-- The number of an axis appears in errors only. -/
theorem toOption_applySelector (r : Selection) (axis axis' : Nat) :
    (applySelector r axis n sel).toOption = (applySelector r axis' n sel).toOption := by
  cases sel with
  | int i =>
    simp only [applySelector, toOption_bind]
    refine congrArg _ (funext fun position => ?_)
    split <;> rfl
  | _ => rfl

theorem toOption_applySelectors (r : Selection) (axis axis' : Nat) :
    (applySelectors r axis sels sizes).toOption = (applySelectors r axis' sels sizes).toOption := by
  induction sels generalizing r axis axis' sizes with
  | nil => rfl
  | cons sel sels ih =>
    by_cases hnewAxis : sel = .newAxis
    · subst hnewAxis
      exact ih _ _ _
    · cases sizes with
      | nil =>
        rw [applySelectors_cons_nil hnewAxis, applySelectors_cons_nil hnewAxis, toOption_bind,
          toOption_bind, toOption_applySelector r axis axis']
        exact congrArg _ (funext fun r => ih r _ _)
      | cons n sizes =>
        rw [applySelectors_cons hnewAxis, applySelectors_cons hnewAxis, toOption_bind,
          toOption_bind, toOption_applySelector r axis axis']
        exact congrArg _ (funext fun r => ih r _ _)

/-- **An integer in front** of an index takes the first axis away. -/
theorem toOption_index_int_cons (hn : n < Word.half) (i : Int) :
    (index (n :: s) (.int i :: rest)).toOption =
      if -n ≤ i ∧ i < n then (index s rest).toOption else none := by
  obtain ⟨hellipsis, hnewAxis⟩ : Selector.int i ≠ .ellipsis ∧ Selector.int i ≠ .newAxis :=
    Selector.ne_of_takesAxis rfl
  have hcount : (Selector.int i :: rest).count .ellipsis = rest.count .ellipsis :=
    List.count_cons_of_ne hellipsis
  have htaken : (Selector.int i :: rest).countP takesAxis = rest.countP takesAxis + 1 :=
    List.countP_cons_of_pos rfl
  have hrank : rank (n :: s) = s.rank + 1 := rfl
  have hunselected : unselected (n :: s) (.int i :: rest) = s.unselected rest := by
    unfold unselected
    omega
  by_cases hellipses : rest.count .ellipsis ≤ 1
  · by_cases hmany : s.rank < rest.countP takesAxis
    · rw [index_eq_tooManyIndices (by omega) (by omega), index_eq_tooManyIndices hellipses hmany]
      split <;> rfl
    · rw [index_eq_runSelectors (by omega) (by omega),
        index_eq_runSelectors hellipses (by omega), toOption_map, toOption_map, runSelectors,
        runSelectors, hunselected, Selector.expand_cons hellipsis, applySelectors_cons hnewAxis,
        toOption_bind, applySelector_int hn]
      split
      · exact congrArg (Option.map _) (toOption_applySelectors _ _ _)
      · rfl
  · rw [index_eq_manyEllipses (by omega), index_eq_manyEllipses (by omega)]
    split <;> rfl

/-- **An integer in front can be split off** into an index of its own. -/
theorem index_int_cons_eq_ok_iff {o : Shape} (hs : ∀ n ∈ s, n < Word.half) (i : Int) :
    index s (.int i :: rest) = .ok o ↔
      ∃ s', index s [.int i] = .ok s' ∧ index s' rest = .ok o := by
  cases s with
  | nil =>
    have hfails (ss : List Selector) (o : Shape) : index [] (.int i :: ss) ≠ .ok o := by
      intro h
      have htaken := (index_eq_ok_iff_runSelectors.mp h).2.1
      rw [List.countP_cons_of_pos rfl] at htaken
      cases htaken
    constructor
    · intro h
      exact absurd h (hfails rest o)
    · rintro ⟨s', h, -⟩
      exact absurd h (hfails [] s')
  | cons n s =>
    have hn : n < Word.half := hs n List.mem_cons_self
    rw [← toOption_eq_some_iff, toOption_index_int_cons hn, index_int hn]
    split
    · simp [toOption_eq_some_iff]
    · simp

/-- **Equivalent indices give the same shape.** Let one index of a tensor come from another by any
number of changes of its spelling, in either direction: an ellipsis written out as the full
selectors it stands for, one added at the end where there is none, a full selector written as a
slice without bounds, an integer counted from the other end of its axis. Then both give the same
shape, or fail alike. Of several ellipses none stands for anything, since no index with them is
accepted. An index that starts with an integer gives what the rest of it gives behind an index by
that integer alone. -/
theorem equivalent_indices_give_same_shape (hs : ∀ n ∈ s, n < Word.half) :
    (∀ sels sels', Relation.EqvGen (Respells s) sels sels' → index s sels' = index s sels) ∧
      (∀ sels, 1 < sels.count .ellipsis → index s sels = .error .manyEllipses) ∧
      ∀ i rest o, index s (.int i :: rest) = .ok o ↔
        ∃ s', index s [.int i] = .ok s' ∧ index s' rest = .ok o := by
  refine ⟨fun sels sels' h => ?_, fun sels => index_eq_manyEllipses,
    fun i rest o => index_int_cons_eq_ok_iff hs i⟩
  induction h with
  | rel sels sels' h => exact h.index_eq hs
  | refl sels => rfl
  | symm sels sels' _ ih => exact ih.symm
  | trans sels sels' sels'' _ _ ih ih' => exact ih'.trans ih

/-- Two spellings of an index that are three changes apart, and an index that is split. -/
theorem spellings_of_one_column :
    (∀ n ∈ [4, 5, 6], n < Word.half) ∧
      Relation.EqvGen (Respells [4, 5, 6]) [.ellipsis, .int 2, .full]
        [.slice .whole, .int (-3), .full] ∧
      index [4, 5, 6] [.ellipsis, .int 2, .full] = .ok [4, 6] ∧
      index [4, 5, 6] [.slice .whole, .int (-3), .full] = .ok [4, 6] ∧
      index [4, 5, 6] [.int 1, .array [2], .int (-1)] = .ok [2] ∧
      ∃ s', index [4, 5, 6] [.int 1] = .ok s' ∧ index s' [.array [2], .int (-1)] = .ok [2] := by
  have hs : ∀ n ∈ [4, 5, 6], n < Word.half := by decide
  have hspell : Relation.EqvGen (Respells [4, 5, 6]) [.ellipsis, .int 2, .full]
      [.slice .whole, .int (-3), .full] := by
    refine .trans _ [.full, .int 2, .full] _ (.rel _ _ ?_) (.trans _ [.full, .int (-3), .full] _
      (.rel _ _ ?_) (.rel _ _ ?_))
    · exact .ellipsis [] [.int 2, .full] (by decide) (by decide)
    · exact .int [.full] [.full] 2 5 rfl (by decide) (by decide)
    · exact .full [] [.int (-3), .full]
  obtain ⟨hsame, -, hsplit⟩ := equivalent_indices_give_same_shape hs
  have hindex : index [4, 5, 6] [.ellipsis, .int 2, .full] = .ok [4, 6] := rfl
  have hint : index [4, 5, 6] [.int 1, .array [2], .int (-1)] = .ok [2] := rfl
  exact ⟨hs, hspell, hindex, (hsame _ _ hspell).trans hindex, hint, (hsplit _ _ _).mp hint⟩

end Shape

end ShapeFault
