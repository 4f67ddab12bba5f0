import Mathlib.Algebra.Order.BigOperators.Group.List
import Mathlib.Algebra.Order.Ring.Nat
import ShapeFault.Proofs.Shape.Result
import ShapeFault.Shape.Concat

/-!
# Joined parts

Parts can be joined along an axis if they have the form `front ++ n :: back`, with the same sizes in
front of the axis and behind it; the joined shape has that form too, and its size along the axis is
the sum of theirs (`concat_eq_ok_iff`). Each part is only compared with the first one, but to have a
form in common is a matter of them all. The sum of all sizes bounds every sum on the way, so only it
has to be a word.

Main statement: parts can be joined in two groups, and the groups with each other
(`concatenation_in_groups`).
-/

namespace ShapeFault.Shape

variable {front back s o : Shape} {ss xs ys : List Shape} {axis : Int} {m n : Nat}
  {c : Word.Overflow}

/-! ### Parts that fit -/

theorem set_append_cons (front back : Shape) (m n : Nat) :
    (front ++ m :: back).set front.length n = front ++ n :: back := by
  rw [List.set_append_right _ _ (Nat.le_refl _), Nat.sub_self, List.set_cons_zero]

theorem rank_append_cons (front back : Shape) (m n : Nat) :
    rank (front ++ m :: back) = rank (front ++ n :: back) := by
  rw [← set_append_cons front back m n, rank, rank, List.length_set]

theorem getElem?_append_cons (front back : Shape) (n : Nat) :
    (front ++ n :: back)[front.length]? = some n := by
  rw [List.getElem?_append_right (Nat.le_refl _), Nat.sub_self, List.getElem?_cons_zero]

theorem getD_append_cons (front back : Shape) (n : Nat) :
    (front ++ n :: back).getD front.length 0 = n := by
  rw [List.getD_eq_getElem?_getD, getElem?_append_cons, Option.getD_some]

/-- A shape has as many axes as the first one, and the same sizes on all of them but one. -/
def AgreesOff (k : Nat) (first s : Shape) : Prop :=
  s.rank = first.rank ∧ ∀ i, i ≠ k → s[i]? = first[i]?

/-- Two shapes do not differ off an axis if their sizes agree at all other positions. -/
theorem differsOff?_eq_none_iff {first : Shape} {k : Nat} :
    differsOff? k first s = none ↔
      ∀ i m n, first[i]? = some m → s[i]? = some n → i ≠ k → m = n := by
  rw [differsOff?, List.find?_eq_none]
  constructor
  · intro h i m n hm hn hi
    have hmem : ((m, n), i) ∈ (first.zip s).zipIdx :=
      List.mem_zipIdx_iff_getElem?.mpr (List.getElem?_zip_eq_some.mpr ⟨hm, hn⟩)
    simpa [hi] using h _ hmem
  · rintro h ⟨⟨m, n⟩, i⟩ hmem
    obtain ⟨hm, hn⟩ := List.getElem?_zip_eq_some.mp (List.mem_zipIdx_iff_getElem?.mp hmem)
    by_cases hi : i = k
    · simp [hi]
    · simp [h i m n hm hn hi]

/-- A part is accepted if it agrees with the first one off the axis. -/
theorem checkPart_eq_ok_iff_agreesOff {first : Shape} {k position : Nat} {u : Unit} :
    checkPart k first position s = .ok u ↔ AgreesOff k first s := by
  have hcheck : checkPart k first position s = .ok u ↔
      s.rank = first.rank ∧ differsOff? k first s = none := by
    rw [checkPart]
    by_cases hrank : s.rank = first.rank
    · rw [if_neg (not_not.mpr hrank)]
      cases differsOff? k first s <;> simp [hrank]
    · simp [hrank]
  rw [hcheck, differsOff?_eq_none_iff]
  refine and_congr_right fun hrank => ⟨fun h i hi => ?_, fun h i m n hm hn hi => ?_⟩
  · rw [rank, rank] at hrank
    rcases Nat.lt_or_ge i first.length with hlt | hge
    · have hlt' : i < s.length := by omega
      rw [List.getElem?_eq_getElem hlt, List.getElem?_eq_getElem hlt',
        h i _ _ (List.getElem?_eq_getElem hlt) (List.getElem?_eq_getElem hlt') hi]
    · rw [List.getElem?_eq_none hge, List.getElem?_eq_none (by omega)]
  · rw [h i hi, hm] at hn
    exact Option.some.inj hn

/-- Shapes that are the same but for their sizes along the axis agree off it. -/
theorem getElem?_append_cons_of_ne {i : Nat} (hi : i ≠ front.length) :
    (front ++ m :: back)[i]? = (front ++ n :: back)[i]? := by
  rw [← set_append_cons front back m n, List.getElem?_set_ne (Ne.symm hi)]

/-- A shape agrees with another off an axis if it is the same but for its size there. -/
theorem agreesOff_append_cons_iff :
    AgreesOff front.length (front ++ m :: back) s ↔ ∃ n, s = front ++ n :: back := by
  constructor
  · rintro ⟨hrank, hagree⟩
    have haxis : front.length < s.length := by
      rw [rank, rank, List.length_append, List.length_cons] at hrank
      omega
    refine ⟨s[front.length], List.ext_getElem? fun i => ?_⟩
    by_cases hi : i = front.length
    · subst hi
      rw [getElem?_append_cons, List.getElem?_eq_getElem haxis]
    · rw [hagree i hi, getElem?_append_cons_of_ne hi]
  · rintro ⟨n, rfl⟩
    exact ⟨rank_append_cons front back n m, fun i hi => getElem?_append_cons_of_ne hi⟩

/-- **One part more.** It can follow the first one if it is the same but for its size along the
axis, and if the program goes on with the sum of the sizes. -/
theorem joinParts_cons_eq_ok_iff {position size t : Nat} :
    joinParts c front.length (front ++ m :: back) position size (s :: ss) = .ok t ↔
      ∃ n size', s = front ++ n :: back ∧ Word.sum? c size n = some size' ∧
        joinParts c front.length (front ++ m :: back) (position + 1) size' ss = .ok t := by
  simp only [joinParts, bind_eq_ok_iff, checkPart_eq_ok_iff_agreesOff, agreesOff_append_cons_iff,
    ShapeError.orAbort_eq_ok_iff]
  constructor
  · rintro ⟨-, ⟨n, rfl⟩, size', hsum, h⟩
    rw [getD_append_cons] at hsum
    exact ⟨n, size', rfl, hsum, h⟩
  · rintro ⟨n, size', rfl, hsum, h⟩
    exact ⟨(), ⟨n, rfl⟩, size', (getD_append_cons front back n).symm ▸ hsum, h⟩

/-- Parts can follow the first one if they are the same but for their sizes along the axis, and
these are added up to the end. -/
theorem joinParts_eq_ok_iff {position size t : Nat} :
    joinParts c front.length (front ++ m :: back) position size ss = .ok t ↔
      ∃ sizes : List Nat, ss = (sizes.map fun n => front ++ n :: back) ∧
        sizes.foldlM (Word.sum? c) size = some t := by
  induction ss generalizing position size with
  | nil =>
    constructor
    · rintro ⟨⟩
      exact ⟨[], rfl, rfl⟩
    · rintro ⟨sizes, hsizes, hsum⟩
      obtain rfl := List.map_eq_nil_iff.mp hsizes.symm
      exact congrArg Except.ok (Option.some.inj hsum)
  | cons s ss ih =>
    rw [joinParts_cons_eq_ok_iff]
    simp only [ih]
    constructor
    · rintro ⟨n, size', rfl, hsum, sizes, rfl, hsums⟩
      exact ⟨n :: sizes, rfl, Option.bind_eq_some_iff.mpr ⟨size', hsum, hsums⟩⟩
    · rintro ⟨sizes, hsizes, hsums⟩
      obtain ⟨n, sizes, rfl, rfl, rfl⟩ := List.map_eq_cons_iff.mp hsizes.symm
      obtain ⟨size', hsum, hsums⟩ := Option.bind_eq_some_iff.mp hsums
      exact ⟨n, size', rfl, hsum, sizes, rfl, hsums⟩

/-! ### The joined shape -/

theorem sum_map_getD (front back : Shape) (sizes : List Nat) :
    ((sizes.map fun n => front ++ n :: back).map (·.getD front.length 0)).sum = sizes.sum := by
  rw [List.map_map, Function.comp_def]
  simp only [getD_append_cons, List.map_id']

/-- A shape has the form that its axis gives it. -/
theorem exists_append_cons {k : Nat} (h : k < s.length) :
    ∃ front n back, s = front ++ n :: back ∧ front.length = k :=
  ⟨s.take k, s[k], s.drop (k + 1), by rw [← List.drop_eq_getElem_cons h, List.take_append_drop],
    List.length_take_of_le (Nat.le_of_lt h)⟩

/-- **What joined parts are** in any program: parts in a common form, whose sizes along the axis are
added up one after the other. -/
theorem concatUnder_eq_ok_iff :
    concatUnder c ss axis = .ok o ↔ ∃ front back m sizes t,
      ss = ((m :: sizes).map fun n => front ++ n :: back) ∧ o = front ++ t :: back ∧
        sizes.foldlM (Word.sum? c) m = some t ∧ normalizeAxis axis o.rank = .ok front.length := by
  constructor
  · intro h
    cases ss with
    | nil => cases h
    | cons first rest =>
      obtain ⟨k, hk, h⟩ := bind_eq_ok_iff.mp h
      obtain ⟨t, ht, ho⟩ := bind_eq_ok_iff.mp h
      obtain ⟨front, m, back, rfl, rfl⟩ := exists_append_cons (lt_of_normalizeAxis hk)
      rw [getD_append_cons] at ht
      obtain ⟨sizes, rfl, hsum⟩ := joinParts_eq_ok_iff.mp ht
      obtain rfl := (Except.ok.inj ho).symm.trans (set_append_cons front back m t)
      exact ⟨front, back, m, sizes, t, rfl, rfl, hsum, rank_append_cons front back m t ▸ hk⟩
  · rintro ⟨front, back, m, sizes, t, rfl, rfl, hsum, haxis⟩
    refine bind_eq_ok_iff.mpr ⟨front.length, rank_append_cons front back t m ▸ haxis, ?_⟩
    rw [getD_append_cons]
    exact bind_eq_ok_iff.mpr ⟨t, joinParts_eq_ok_iff.mpr ⟨sizes, rfl, hsum⟩,
      congrArg Except.ok (set_append_cons front back m t)⟩

/-! ### Checked sums -/

/-- The sizes can be added up in a word. One alone is not added to anything. -/
def Addable (sizes : List Nat) : Prop :=
  1 < sizes.length → sizes.sum < Word.count

/-- Sizes whose sum is a word are added up to it, whatever becomes of other sums. -/
theorem foldlM_sum?_of_lt (c : Word.Overflow) {sizes : List Nat} (h : m + sizes.sum < Word.count) :
    sizes.foldlM (Word.sum? c) m = some (m + sizes.sum) := by
  induction sizes generalizing m with
  | nil => rfl
  | cons n sizes ih =>
    rw [List.sum_cons, ← Nat.add_assoc] at h
    rw [List.foldlM_cons, Word.sum?_of_lt c (by omega), List.sum_cons, ← Nat.add_assoc]
    exact ih h

/-- Checked sums are those that are words. -/
theorem foldlM_sum?_abort_eq_some_iff {sizes : List Nat} {t : Nat} :
    sizes.foldlM (Word.sum? .abort) m = some t ↔ t = (m :: sizes).sum ∧ Addable (m :: sizes) := by
  induction sizes generalizing m with
  | nil => simp [Addable, eq_comm]
  | cons n sizes ih =>
    rw [List.foldlM_cons, Option.bind_eq_bind, Option.bind_eq_some_iff]
    simp only [Word.sum?_abort_eq_some_iff, ih, Addable, List.sum_cons, List.length_cons]
    constructor
    · rintro ⟨k, ⟨rfl, hlt⟩, rfl, haddable⟩
      refine ⟨by omega, fun _ => ?_⟩
      cases sizes with
      | nil => exact hlt
      | cons => have := haddable (by simp); omega
    · rintro ⟨rfl, haddable⟩
      have hlt := haddable (by omega)
      exact ⟨m + n, ⟨rfl, by omega⟩, by omega, fun _ => by omega⟩

/-- **What joined parts are**: parts in a common form, whose sizes along the axis add up to a
word. -/
theorem concat_eq_ok_iff :
    concat ss axis = .ok o ↔ ∃ front back sizes, sizes ≠ [] ∧
      ss = (sizes.map fun n => front ++ n :: back) ∧ o = front ++ sizes.sum :: back ∧
      Addable sizes ∧ normalizeAxis axis o.rank = .ok front.length := by
  rw [concat, concatUnder_eq_ok_iff]
  simp only [foldlM_sum?_abort_eq_some_iff]
  constructor
  · rintro ⟨front, back, m, sizes, t, hparts, ho, ⟨rfl, haddable⟩, haxis⟩
    exact ⟨front, back, m :: sizes, List.cons_ne_nil m sizes, hparts, ho, haddable, haxis⟩
  · rintro ⟨front, back, sizes, hne, hparts, ho, haddable, haxis⟩
    obtain ⟨m, sizes, rfl⟩ := List.exists_cons_of_ne_nil hne
    exact ⟨front, back, m, sizes, _, hparts, ho, ⟨rfl, haddable⟩, haxis⟩

/-- Where the axis stands is known by its number, so a joined shape has one form only. -/
theorem concat_eq_ok_append_cons_iff
    (haxis : normalizeAxis axis (rank (front ++ n :: back)) = .ok front.length) :
    concat ss axis = .ok (front ++ m :: back) ↔
      ∃ sizes, sizes ≠ [] ∧ ss = (sizes.map fun n => front ++ n :: back) ∧ sizes.sum = m ∧
        Addable sizes := by
  rw [rank_append_cons front back n m] at haxis
  rw [concat_eq_ok_iff]
  constructor
  · rintro ⟨front', back', sizes, hne, rfl, hform, haddable, haxis'⟩
    have hlength : front.length = front'.length := Except.ok.inj (haxis.symm.trans haxis')
    obtain ⟨rfl, hcons⟩ := List.append_inj hform hlength
    obtain ⟨rfl, rfl⟩ := List.cons.inj hcons
    exact ⟨sizes, hne, rfl, rfl, haddable⟩
  · rintro ⟨sizes, hne, rfl, rfl, haddable⟩
    exact ⟨front, back, sizes, hne, rfl, rfl, haddable, haxis⟩

/-! ### Groups of parts -/

/-- Two groups of sizes can be added up together if the sum of both is a word. -/
theorem addable_append_iff {ms ns : List Nat} (hms : ms ≠ []) (hns : ns ≠ []) :
    Addable (ms ++ ns) ↔ ms.sum + ns.sum < Word.count := by
  have hm := List.length_pos_of_ne_nil hms
  have hn := List.length_pos_of_ne_nil hns
  have hlength : 1 < (ms ++ ns).length := by
    rw [List.length_append]
    omega
  rw [← List.sum_append]
  exact forall_prop_of_true hlength

/-- **Parts are joined in groups**: what two groups of parts are joined to is joined to the same
shape as all parts together. -/
theorem concat_append_eq_ok_iff (hxs : xs ≠ []) (hys : ys ≠ []) :
    concat (xs ++ ys) axis = .ok o ↔
      ∃ a, concat xs axis = .ok a ∧ ∃ b, concat ys axis = .ok b ∧ concat [a, b] axis = .ok o := by
  constructor
  · intro h
    obtain ⟨front, back, sizes, -, hparts, rfl, haddable, haxis⟩ := concat_eq_ok_iff.mp h
    obtain ⟨ms, ns, rfl, rfl, rfl⟩ := List.map_eq_append_iff.mp hparts.symm
    have hms : ms ≠ [] := fun hnil => hxs (List.map_eq_nil_iff.mpr hnil)
    have hns : ns ≠ [] := fun hnil => hys (List.map_eq_nil_iff.mpr hnil)
    -- the sum of all sizes bounds those of the groups
    have hsum := (addable_append_iff hms hns).mp haddable
    refine ⟨_, (concat_eq_ok_append_cons_iff haxis).mpr ⟨ms, hms, rfl, rfl, fun _ => by omega⟩,
      _, (concat_eq_ok_append_cons_iff haxis).mpr ⟨ns, hns, rfl, rfl, fun _ => by omega⟩, ?_⟩
    refine (concat_eq_ok_append_cons_iff haxis).mpr
      ⟨[ms.sum, ns.sum], List.cons_ne_nil _ _, rfl, ?_, fun _ => hsum⟩
    rw [List.sum_append]
    rfl
  · rintro ⟨a, ha, b, hb, h⟩
    obtain ⟨front, back, sizes, -, hparts, rfl, haddable, haxis⟩ := concat_eq_ok_iff.mp h
    obtain ⟨m, sizes, rfl, rfl, hrest⟩ := List.map_eq_cons_iff.mp hparts.symm
    obtain ⟨n, sizes, rfl, rfl, hnil⟩ := List.map_eq_cons_iff.mp hrest
    obtain rfl := List.map_eq_nil_iff.mp hnil
    obtain ⟨ms, hms, rfl, rfl, -⟩ := (concat_eq_ok_append_cons_iff haxis).mp ha
    obtain ⟨ns, hns, rfl, rfl, -⟩ := (concat_eq_ok_append_cons_iff haxis).mp hb
    refine (concat_eq_ok_append_cons_iff haxis).mpr
      ⟨ms ++ ns, List.append_ne_nil_of_left_ne_nil hms ns, List.map_append.symm, ?_,
        (addable_append_iff hms hns).mpr (haddable Nat.one_lt_two)⟩
    rw [List.sum_append]
    rfl

/-- **The sizes of a joined shape**: along the axis the sum of those of the parts, and at every
other position that of each part. -/
theorem sizes_of_concat (h : concat ss axis = .ok o) : ∃ k, normalizeAxis axis o.rank = .ok k ∧
    o[k]? = some (ss.map (·.getD k 0)).sum ∧
      ∀ s ∈ ss, s.rank = o.rank ∧ ∀ i, i ≠ k → s[i]? = o[i]? := by
  obtain ⟨front, back, sizes, -, rfl, rfl, -, haxis⟩ := concat_eq_ok_iff.mp h
  refine ⟨front.length, haxis, ?_, fun s hs => ?_⟩
  · rw [sum_map_getD, getElem?_append_cons]
  · obtain ⟨n, -, rfl⟩ := List.mem_map.mp hs
    exact ⟨rank_append_cons front back _ _, fun i hi => getElem?_append_cons_of_ne hi⟩

/-- The sizes of a joined shape are words if all sizes of the parts together are one. -/
theorem lt_count_of_concat (h : concat ss axis = .ok o)
    (hword : (ss.map List.sum).sum < Word.count) : ∀ n ∈ o, n < Word.count := by
  obtain ⟨front, back, sizes, hne, rfl, rfl, -, -⟩ := concat_eq_ok_iff.mp h
  obtain ⟨m, sizes, rfl⟩ := List.exists_cons_of_ne_nil hne
  have hpart (n : Nat) : (front ++ n :: back).sum = front.sum + (n + back.sum) := by
    rw [List.sum_append, List.sum_cons]
  -- the size of each part along the axis is one of those that are added up
  have hrest : sizes.sum ≤ (sizes.map fun n => front.sum + (n + back.sum)).sum := by
    have hle : (sizes.map id).sum ≤ (sizes.map fun n => front.sum + (n + back.sum)).sum :=
      List.sum_le_sum fun n _ => by
        rw [id]
        omega
    rwa [List.map_id] at hle
  simp only [List.map_map, List.map_cons, List.sum_cons, Function.comp_def, hpart] at hword
  intro n hn
  have hmem : n ≤ (front ++ (m :: sizes).sum :: back).sum :=
    List.single_le_sum (fun _ _ => Nat.zero_le _) n hn
  rw [hpart, List.sum_cons] at hmem
  omega

/-- **Parts can be joined in groups.** Let parts be in two groups that are not empty. What all of
them are joined to is what the two groups are joined to, joined in turn, and one fails exactly if
the other does. The joined shape has the sum of the sizes of all parts along the axis, and every
other size of each part; its sizes are words if all sizes of the parts together are one. -/
theorem concatenation_in_groups (hxs : xs ≠ []) (hys : ys ≠ []) :
    (concat (xs ++ ys) axis).toOption =
        (do
          let a ← concat xs axis
          let b ← concat ys axis
          concat [a, b] axis).toOption ∧
      ∀ o, concat (xs ++ ys) axis = .ok o →
        (∃ k, normalizeAxis axis o.rank = .ok k ∧
          o[k]? = some ((xs ++ ys).map (·.getD k 0)).sum ∧
          ∀ s ∈ xs ++ ys, s.rank = o.rank ∧ ∀ i, i ≠ k → s[i]? = o[i]?) ∧
        (((xs ++ ys).map List.sum).sum < Word.count → ∀ n ∈ o, n < Word.count) := by
  refine ⟨Option.ext fun o => ?_, fun o h => ⟨sizes_of_concat h, lt_count_of_concat h⟩⟩
  rw [toOption_eq_some_iff, toOption_eq_some_iff, concat_append_eq_ok_iff hxs hys]
  simp only [bind_eq_ok_iff]

/-- Parts of different sizes along the second-to-last axis, one of them without elements. -/
theorem concatenation_of_three_parts :
    [[2, 0, 3], [2, 5, 3]] ≠ [] ∧ [[2, 4, 3]] ≠ [] ∧
      concat [[2, 0, 3], [2, 5, 3]] (-2) = .ok [2, 5, 3] ∧
      concat [[2, 5, 3], [2, 4, 3]] (-2) = .ok [2, 9, 3] ∧
      (concat ([[2, 0, 3], [2, 5, 3]] ++ [[2, 4, 3]]) (-2)).toOption = some [2, 9, 3] := by
  have hfirst : [[2, 0, 3], [2, 5, 3]] ≠ [] := List.cons_ne_nil _ _
  have hsecond : [[2, 4, 3]] ≠ [] := List.cons_ne_nil _ _
  exact ⟨hfirst, hsecond, rfl, rfl, (concatenation_in_groups hfirst hsecond).1.trans rfl⟩

end ShapeFault.Shape
