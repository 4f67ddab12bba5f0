import Mathlib.Algebra.Order.BigOperators.Group.List
import ShapeFault.Proofs.Shape.Concat
import ShapeFault.Proofs.Shape.Respelling

/-!
# Parts as slices

What is joined along an axis can be cut apart again along that axis. The parts stand one behind the
other, so the positions of a part go from the sum of the sizes in front of it (`offset`) to the sum
with its own size. An index that keeps all axes in front and takes these positions gives the part
(`parts_are_slices_of_concatenation`), unless the sizes add up to more than a word and their sum has
wrapped around (`parts_of_wrapped_sum_not_slices`).
-/

namespace ShapeFault

/-- A slice within an axis selects as many positions as there are between its bounds. -/
theorem Slice.count_between {start n size : Nat} (h : start + n ≤ size) (hsize : size < Word.half) :
    count ⟨some start, some (start + n : Nat), none⟩ size = .ok n := by
  have hwalk : walk ⟨some start, some (start + n : Nat), none⟩ size =
      ⟨start, (start + n : Nat), 1⟩ := by
    have hnormal {bound : Nat} (hbound : bound ≤ size) :
        normal ⟨some start, some (start + n : Nat), none⟩ size bound = bound := by
      have hleast : least ⟨some start, some (start + n : Nat), none⟩ = 0 := rfl
      have hgreatest : greatest ⟨some start, some (start + n : Nat), none⟩ size = size := rfl
      rw [normal, hleast, hgreatest]
      omega
    rw [walk, normalStart, normalStop]
    simp only [hnormal h, hnormal (Nat.le_of_add_right_le h)]
    rfl
  have hstep : (Slice.mk (some start) (some (start + n : Nat)) none).step ≠ some 0 :=
    (Option.some_ne_none 0).symm
  rw [count_of_step_ne_zero hsize hstep, hwalk, Walk.count_of_step_one]
  congr
  omega

namespace Shape

variable {front back o : Shape} {ss : List Shape} {axis : Int} {n : Nat} {c : Word.Overflow}

/-! ### Slices along an axis -/

/-- The index that takes the positions from `start` up to `stop` of the axis `k`, and keeps all
other axes. -/
def alongAxis (k start stop : Nat) : List Selector :=
  List.replicate k .full ++ [.slice ⟨some start, some stop, none⟩]

/-- The slice behind full selectors is applied to the axis behind those that they keep. -/
theorem runSelectors_full_append_slice (sl : Slice) :
    runSelectors (front ++ n :: back)
        (List.replicate front.length Selector.full ++ [Selector.slice sl]) =
      (sl.count n).map fun m => ⟨front ++ m :: back, none⟩ := by
  have hfull : Selector.ellipsis ∉ List.replicate front.length Selector.full := by
    simp [List.mem_replicate]
  have hnone : Selector.ellipsis ∉
      List.replicate front.length Selector.full ++ [Selector.slice sl] := by
    simp [List.mem_replicate]
  have hkept : (List.replicate front.length Selector.full).countP Selector.takesAxis =
      front.length :=
    List.countP_replicate.trans (if_pos rfl)
  rw [runSelectors, Selector.expand_eq_self hnone, applySelectors_append_bind hfull hkept,
    applySelectors_full]
  change applySelectors ⟨front, none⟩ (0 + front.length) [.slice sl] (n :: back) = _
  have hslice : Selector.slice sl ≠ .newAxis := (Selector.ne_of_takesAxis rfl).2
  rw [applySelectors_cons hslice, applySelector_slice]
  cases sl.count n with
  | error e => rfl
  | ok m =>
    have hsizes : front ++ [m] ++ back = front ++ m :: back := List.append_assoc front [m] back
    exact congrArg (fun sizes => Except.ok (Selection.mk sizes none)) hsizes

/-- A slice behind full selectors changes the size of one axis. -/
theorem index_full_append_slice (sl : Slice) :
    index (front ++ n :: back)
        (List.replicate front.length Selector.full ++ [Selector.slice sl]) =
      (sl.count n).map (front ++ · :: back) := by
  have hellipses : (List.replicate front.length Selector.full ++ [Selector.slice sl]).count
      .ellipsis ≤ 1 := by
    rw [List.count_eq_zero.mpr (by simp [List.mem_replicate])]
    exact Nat.zero_le 1
  have htaken : (List.replicate front.length Selector.full ++ [Selector.slice sl]).countP
      Selector.takesAxis ≤ rank (front ++ n :: back) := by
    refine List.countP_le_length.trans ?_
    simp [rank]
  rw [index_eq_runSelectors hellipses htaken, runSelectors_full_append_slice]
  cases sl.count n <;> rfl

/-- A slice along an axis gives it the number of positions between its bounds. -/
theorem index_alongAxis {start m : Nat} (h : start + m ≤ n) (hn : n < Word.half) :
    index (front ++ n :: back) (alongAxis front.length start (start + m)) =
      .ok (front ++ m :: back) := by
  rw [alongAxis, index_full_append_slice, Slice.count_between h hn]
  rfl

/-! ### Parts of a joined shape -/

/-- The sum of the sizes along the axis `k` of the parts in front of the one at position `i`. -/
def offset (k : Nat) (ss : List Shape) (i : Nat) : Nat :=
  ((ss.take i).map (·.getD k 0)).sum

theorem offset_map (front back : Shape) (sizes : List Nat) (i : Nat) :
    offset front.length (sizes.map fun n => front ++ n :: back) i = (sizes.take i).sum := by
  rw [offset, ← List.map_take, sum_map_getD]

/-- A size and those in front of it are together at most all sizes. -/
theorem sum_take_add_le {sizes : List Nat} {i : Nat} (h : sizes[i]? = some n) :
    (sizes.take i).sum + n ≤ sizes.sum := by
  obtain ⟨hi, rfl⟩ := List.getElem?_eq_some_iff.mp h
  rw [← List.sum_take_succ sizes i hi]
  exact (List.take_sublist _ _).sum_le_sum fun _ _ => Nat.zero_le _

/-- **The parts of a joined shape are slices of it.** Let parts be joined along an axis, and let the
sizes of the joined shape be words with a sign. Where sums wrap around, let the sizes of the parts
along the axis add up to a word; where they are checked, they do. The axis has one position `k` in
the joined shape and in every part. For each part, the slice along it that starts behind the sizes
of the parts in front, and is as long as the part, can be written in words and gives exactly the
part. -/
theorem parts_are_slices_of_concatenation (h : concatUnder c ss axis = .ok o)
    (ho : ∀ n ∈ o, n < Word.half)
    (hwrap : c = .wrap → ∀ k, normalizeAxis axis o.rank = .ok k →
      (ss.map (·.getD k 0)).sum < Word.count) :
    ∃ k, normalizeAxis axis o.rank = .ok k ∧
      ∀ i s, ss[i]? = some s → normalizeAxis axis s.rank = .ok k ∧
        ∃ n, s[k]? = some n ∧ Word.Fits (offset k ss i + n : Nat) ∧
          index o (alongAxis k (offset k ss i) (offset k ss i + n)) = .ok s := by
  obtain ⟨front, back, m, sizes, t, rfl, rfl, hadded, haxis⟩ := concatUnder_eq_ok_iff.mp h
  have hsum : (m :: sizes).sum = t := by
    cases c with
    | abort => exact (foldlM_sum?_abort_eq_some_iff.mp hadded).1.symm
    | wrap =>
      have hlt := hwrap rfl front.length haxis
      rw [sum_map_getD] at hlt
      exact Option.some.inj ((foldlM_sum?_of_lt .wrap hlt).symm.trans hadded)
  have ht : t < Word.half := ho t (List.mem_append_right front List.mem_cons_self)
  refine ⟨front.length, haxis, fun i s hs => ?_⟩
  obtain ⟨n, hn, rfl⟩ := List.getElem?_map .. ▸ hs |> Option.map_eq_some_iff.mp
  have hle : ((m :: sizes).take i).sum + n ≤ t := hsum ▸ sum_take_add_le hn
  rw [offset_map]
  exact ⟨rank_append_cons front back _ n ▸ haxis, n, getElem?_append_cons front back n,
    Word.fits_of_lt (Nat.lt_of_le_of_lt hle ht), index_alongAxis hle ht⟩

/-- The slices of three parts, the first of which has no positions along the axis. -/
theorem slices_of_three_parts :
    concatUnder .wrap [[2, 0, 3], [2, 5, 3], [2, 4, 3]] (-2) = .ok [2, 9, 3] ∧
      (∀ n ∈ [2, 9, 3], n < Word.half) ∧
      (∀ k, normalizeAxis (-2) 3 = .ok k →
        ([[2, 0, 3], [2, 5, 3], [2, 4, 3]].map (·.getD k 0)).sum < Word.count) ∧
      index [2, 9, 3] [.full, .slice ⟨some 5, some 9, none⟩] = .ok [2, 4, 3] := by
  have h : concatUnder .wrap [[2, 0, 3], [2, 5, 3], [2, 4, 3]] (-2) = .ok [2, 9, 3] := rfl
  have ho : ∀ n ∈ [2, 9, 3], n < Word.half := by decide
  have hsum : ∀ k, normalizeAxis (-2) 3 = .ok k →
      ([[2, 0, 3], [2, 5, 3], [2, 4, 3]].map (·.getD k 0)).sum < Word.count := by
    rintro k hk
    obtain rfl : 1 = k := Except.ok.inj hk
    decide
  obtain ⟨k, hk, hparts⟩ := parts_are_slices_of_concatenation h ho fun _ => hsum
  obtain rfl : 1 = k := Except.ok.inj hk
  obtain ⟨-, n, hn, -, hindex⟩ := hparts 2 [2, 4, 3] rfl
  obtain rfl : 4 = n := Option.some.inj hn
  exact ⟨h, ho, hsum, hindex⟩

/-- **A sum that wraps around loses the parts.** Three parts of which the sizes add up to one more
than all words are joined to a shape of size one, and the slice for the first part is not that
part. -/
theorem parts_of_wrapped_sum_not_slices :
    ¬∀ (c : Word.Overflow) (ss : List Shape) (axis : Int) (o : Shape),
      concatUnder c ss axis = .ok o → (∀ n ∈ o, n < Word.half) →
        ∃ k, normalizeAxis axis o.rank = .ok k ∧ ∀ i s, ss[i]? = some s → ∃ n, s[k]? = some n ∧
          index o (alongAxis k (offset k ss i) (offset k ss i + n)) = .ok s := by
  intro h
  obtain ⟨k, hk, hparts⟩ := h .wrap [[9223372036854775807], [9223372036854775807], [3]] 0 [1]
    (by decide +kernel) (by decide)
  obtain rfl : 0 = k := Except.ok.inj hk
  obtain ⟨n, hn, hindex⟩ := hparts 0 [9223372036854775807] rfl
  obtain rfl : 9223372036854775807 = n := Option.some.inj hn
  have hone : index [1] [.slice ⟨some 0, some 9223372036854775807, none⟩] = .ok [1] := by
    decide +kernel
  cases hone.symm.trans hindex

end Shape

end ShapeFault
