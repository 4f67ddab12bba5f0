import ShapeFault.Proofs.Shape.Concat
import ShapeFault.Proofs.Shape.Dot
import ShapeFault.Proofs.Shape.Stop

/-!
# First offenders

What an error about shapes says of the operands is true of them, although it is made of factors,
expanded selectors and positions from the front. A product names the two sizes that it multiplies
along. Parts that cannot be joined are gone through in their order and compared with the first one
axis by axis; the error names the first part that does not fit (`FirstMisfit`), and of its axes the
first on which it differs (`FirstDifference`). An index names the first axis whose selector is not a
position of it.

Main statement: each of these errors arises exactly if what it says is true
(`shape_errors_name_first_offender`).
-/

namespace ShapeFault.Shape

variable {l r first s : Shape} {ss : List Shape} {axis : Int} {k position d m n : Nat}
  {e : ShapeError} {c : Word.Overflow} {size : Nat}

/-! ### Products -/

/-- A matrix product names the last size of the left operand and the second-to-last one of the right
operand, or its only one. -/
theorem matmul_eq_innerSizes_iff : matmul l r = .error (.innerSizes m n) ↔
    l.getLast? = some m ∧ r[r.rank - 2]? = some n ∧ m ≠ n := by
  -- an operand without axes is refused for that, and has neither of the sizes
  rcases Nat.eq_zero_or_pos l.rank with hl | hl
  · obtain rfl := List.length_eq_zero_iff.mp hl
    constructor
    · rintro ⟨⟩
    · rintro ⟨⟨⟩, -⟩
  obtain ⟨f, hf, hleft⟩ := exists_leftFactor hl
  rcases Nat.eq_zero_or_pos r.rank with hr | hr
  · obtain rfl := List.length_eq_zero_iff.mp hr
    rw [matmul, hf]
    constructor
    · rintro ⟨⟩
    · rintro ⟨-, ⟨⟩, -⟩
  obtain ⟨g, hg, hright, hrank⟩ := exists_rightFactor hr
  have hlast : l.getLast? = some f.inner := by
    rw [hleft, List.getLast?_concat]
  have hinner : r[r.rank - 2]? = some g.inner := by
    rw [hrank, hright, getElem?_append_cons]
  rw [hlast, hinner, matmul, hf, hg]
  by_cases hne : f.inner = g.inner
  · simp only [ne_eq, hne, not_true_eq_false, if_false]
    constructor
    · cases broadcast? f.batch g.batch <;> rintro ⟨⟩
    · rintro ⟨hm, hn, hmn⟩
      exact absurd (Option.some.inj (hm.symm.trans hn)) hmn
  · simp only [ne_eq, hne, not_false_eq_true, if_true]
    constructor
    · intro h
      obtain ⟨rfl, rfl⟩ := ShapeError.innerSizes.inj (Except.error.inj h)
      exact ⟨rfl, rfl, hne⟩
    · rintro ⟨⟨⟩, ⟨⟩, -⟩
      rfl

/-- A dot product names the sizes of its operands along the axes that it sums over. -/
theorem dot_eq_notAligned_iff {left right : Shape} {i j : Nat} :
    dot l r = .error (.notAligned left right m i n j) ↔
      (left = l ∧ right = r ∧ i = l.rank - 1 ∧ j = r.rank - 2) ∧
        l[i]? = some m ∧ r[j]? = some n ∧ m ≠ n := by
  constructor
  · intro h
    unfold dot at h
    extract_lets leftAxis rightAxis at h
    split at h
    · cases h
    · cases h
    · next m' n' hm hn =>
      split at h
      · cases h
      · next hne =>
        obtain ⟨rfl, rfl, rfl, rfl, rfl, rfl⟩ :=
          ShapeError.notAligned.inj (Except.error.inj h)
        exact ⟨⟨rfl, rfl, rfl, rfl⟩, hm, hn, hne⟩
  · rintro ⟨⟨rfl, rfl, rfl, rfl⟩, hm, hn, hne⟩
    simp only [dot, hm, hn, if_neg hne]

/-! ### Parts that do not fit -/

/-- The first axis other than `k` on which a shape differs from the first one is `d`, where they
have the sizes `n` and `m`. -/
structure FirstDifference (k : Nat) (first s : Shape) (d m n : Nat) : Prop where
  ne : d ≠ k
  expected : first[d]? = some m
  found : s[d]? = some n
  differs : m ≠ n
  agrees : ∀ c < d, c ≠ k → s[c]? = first[c]?

/-- The first part that cannot follow the first shape along the axis at position `k` is `s` at
`position`. -/
structure FirstMisfit (ss : List Shape) (axis : Int) (k : Nat) (first : Shape) (position : Nat)
    (s : Shape) : Prop where
  head : ss.head? = some first
  axis_eq : normalizeAxis axis first.rank = .ok k
  part : ss[position]? = some s
  misfit : ¬AgreesOff k first s
  before : ∀ i t, i < position → ss[i]? = some t → AgreesOff k first t

/-- The first difference that is found is the first there is. -/
theorem differsOff?_eq_some_iff :
    differsOff? k first s = some ((m, n), d) ↔ FirstDifference k first s d m n := by
  rw [differsOff?, List.find?_eq_some_iff_getElem]
  constructor
  · rintro ⟨hdiffers, i, hi, hget, hbefore⟩
    obtain ⟨hfirst, hs⟩ : i < first.length ∧ i < s.length := by
      simpa using hi
    rw [List.getElem_zipIdx, List.getElem_zip, Nat.zero_add] at hget
    obtain ⟨hsizes, rfl⟩ := Prod.mk.inj hget
    obtain ⟨rfl, rfl⟩ := Prod.mk.inj hsizes
    obtain ⟨hne, hdiffers⟩ : i ≠ k ∧ first[i] ≠ s[i] := by
      simpa using hdiffers
    refine ⟨hne, List.getElem?_eq_getElem hfirst, List.getElem?_eq_getElem hs, hdiffers,
      fun c hc hck => ?_⟩
    have hagree : first[c] = s[c] := by
      simpa [hck] using hbefore c hc
    rw [List.getElem?_eq_getElem (hc.trans hs), List.getElem?_eq_getElem (hc.trans hfirst), hagree]
  · intro h
    obtain ⟨hfirst, hm⟩ := List.getElem?_eq_some_iff.mp h.expected
    obtain ⟨hs, hn⟩ := List.getElem?_eq_some_iff.mp h.found
    refine ⟨by simp [h.ne, h.differs], d, by simp [hfirst, hs], by simp [hm, hn], fun c hc => ?_⟩
    by_cases hck : c = k
    · simp [hck]
    · have hagree := h.agrees c hc hck
      rw [List.getElem?_eq_getElem (hc.trans hs), List.getElem?_eq_getElem (hc.trans hfirst)]
        at hagree
      simp [Option.some.inj hagree]

/-- What the error about one part says. -/
theorem checkPart_eq_error_iff : checkPart k first position s = .error e ↔
    (s.rank ≠ first.rank ∧ e = .partRank position first.rank s.rank) ∨
      (s.rank = first.rank ∧
        ∃ d m n, FirstDifference k first s d m n ∧ e = .partSize d position m n) := by
  rw [checkPart]
  by_cases hrank : s.rank = first.rank
  · rw [if_neg (not_not.mpr hrank)]
    simp only [← differsOff?_eq_some_iff, hrank]
    cases hdiffers : differsOff? k first s with
    | none => simp
    | some p =>
      obtain ⟨⟨m, n⟩, d⟩ := p
      simp [eq_comm]
  · rw [if_pos hrank]
    simp [hrank, eq_comm]

theorem checkPart_of_agreesOff (h : AgreesOff k first s) : checkPart k first position s = .ok () :=
  checkPart_eq_ok_iff_agreesOff.mpr h

/-- A part that does not fit is reported before anything is added up. -/
theorem joinParts_of_checkPart_error (h : checkPart k first position s = .error e) :
    joinParts c k first position size (s :: ss) = .error e := by
  rw [joinParts, h]
  rfl

/-- Behind a part that fits, the program goes on with the sum of the sizes. -/
theorem joinParts_of_agreesOff (h : AgreesOff k first s) :
    joinParts c k first position size (s :: ss) =
      ShapeError.orAbort (Word.sum? c size (s.getD k 0)) >>= fun size =>
        joinParts c k first (position + 1) size ss := by
  rw [joinParts, checkPart_of_agreesOff h]
  rfl

/-- **The first part that does not fit** is reported, if the program gets there. -/
theorem joinParts_eq_error_iff (he : e ≠ .abort) :
    joinParts c k first position size ss = .error e ↔
      (∃ i s, ss[i]? = some s ∧ (∀ j t, j < i → ss[j]? = some t → AgreesOff k first t) ∧
        checkPart k first (position + i) s = .error e) ∧
      joinParts c k first position size ss ≠ .error .abort := by
  induction ss generalizing position size with
  | nil =>
    constructor
    · rintro ⟨⟩
    · rintro ⟨⟨i, s, ⟨⟩, -⟩, -⟩
  | cons s ss ih =>
    cases hcheck : checkPart k first position s with
    | error e' =>
      rw [joinParts_of_checkPart_error hcheck]
      constructor
      · rintro ⟨⟩
        exact ⟨⟨0, s, rfl, fun j _ hj => absurd hj (Nat.not_lt_zero j), hcheck⟩,
          fun h => he (Except.error.inj h)⟩
      · rintro ⟨⟨i, t, ht, hbefore, ht'⟩, -⟩
        cases i with
        | zero =>
          obtain rfl := Option.some.inj ht
          exact congrArg Except.error (Except.error.inj (hcheck.symm.trans ht'))
        | succ i =>
          rw [checkPart_of_agreesOff (hbefore 0 s (Nat.succ_pos i) rfl)] at hcheck
          cases hcheck
    | ok u =>
      have hs := checkPart_eq_ok_iff_agreesOff.mp hcheck
      rw [joinParts_of_agreesOff hs]
      cases Word.sum? c size (s.getD k 0) with
      | none =>
        constructor
        · rintro ⟨⟩
          exact absurd rfl he
        · rintro ⟨-, h⟩
          exact absurd rfl h
      | some size' =>
        refine ih.trans (and_congr_left fun _ => ⟨?_, ?_⟩)
        · rintro ⟨i, t, ht, hbefore, he⟩
          refine ⟨i + 1, t, ht, fun j t' hj ht' => ?_, ?_⟩
          · cases j with
            | zero => exact Option.some.inj ht' ▸ hs
            | succ j => exact hbefore j t' (Nat.lt_of_succ_lt_succ hj) ht'
          · rw [← he, Nat.add_assoc, Nat.add_comm 1]
        · rintro ⟨i, t, ht, hbefore, he⟩
          cases i with
          | zero =>
            obtain rfl := Option.some.inj ht
            rw [Nat.add_zero, hcheck] at he
            cases he
          | succ i =>
            refine ⟨i, t, ht, fun j t' hj => hbefore (j + 1) t' (Nat.succ_lt_succ hj), ?_⟩
            rw [← he, Nat.add_assoc, Nat.add_comm 1]

/-- A program that ends while it joins parts checks its sums, and the sizes of the parts are
together more than a word. -/
theorem joinParts_eq_abort (h : joinParts c k first position size ss = .error .abort) :
    c = .abort ∧ Word.count ≤ size + (ss.map (·.getD k 0)).sum := by
  induction ss generalizing position size with
  | nil => cases h
  | cons s ss ih =>
    rw [List.map_cons, List.sum_cons]
    cases hcheck : checkPart k first position s with
    | error e =>
      rw [joinParts_of_checkPart_error hcheck] at h
      obtain ⟨-, rfl⟩ | ⟨-, d, m, n, -, rfl⟩ := checkPart_eq_error_iff.mp hcheck
      all_goals cases h
    | ok u =>
      rw [joinParts_of_agreesOff (checkPart_eq_ok_iff_agreesOff.mp hcheck)] at h
      obtain hsum | ⟨size', hsum, h⟩ := bind_eq_error_iff.mp h
      · obtain ⟨hc, hlarge⟩ := Word.sum?_eq_none_iff.mp (ShapeError.orAbort_eq_error_iff.mp hsum).1
        exact ⟨hc, by omega⟩
      · obtain ⟨rfl, hlarge⟩ := ih h
        obtain ⟨rfl, -⟩ := Word.sum?_abort_eq_some_iff.mp (ShapeError.orAbort_eq_ok_iff.mp hsum)
        exact ⟨rfl, by omega⟩

theorem AgreesOff.refl (k : Nat) (first : Shape) : AgreesOff k first first :=
  ⟨rfl, fun _ _ => rfl⟩

theorem normalizeAxis_eq_error {rank : Nat} (h : normalizeAxis axis rank = .error e) :
    e = .axisOutOfBounds axis rank := by
  unfold normalizeAxis at h
  extract_lets at h
  split at h
  · cases h
  · exact (Except.error.inj h).symm

/-- Parts that are refused for their shapes are refused at the first of them that does not fit, and
for what is wrong with this one. -/
theorem concatUnder_eq_error_iff (he : e.isMismatch = true) : concatUnder c ss axis = .error e ↔
    (∃ k first position s, FirstMisfit ss axis k first position s ∧
      checkPart k first position s = .error e) ∧ concatUnder c ss axis ≠ .error .abort := by
  have hne : e ≠ .abort := by
    rintro rfl
    cases he
  cases ss with
  | nil =>
    constructor
    · rintro ⟨⟩
      cases he
    · rintro ⟨⟨k, first, position, s, hmisfit, -⟩, -⟩
      cases hmisfit.head
  | cons first ss =>
    constructor
    · intro h
      refine ⟨?_, fun habort => hne (Except.error.inj (h.symm.trans habort))⟩
      obtain h | ⟨k, hk, h⟩ := bind_eq_error_iff.mp h
      · rw [normalizeAxis_eq_error h] at he
        cases he
      · obtain h | ⟨_, -, ⟨⟩⟩ := bind_eq_error_iff.mp h
        obtain ⟨⟨i, s, hs, hbefore, hcheck⟩, -⟩ := (joinParts_eq_error_iff hne).mp h
        rw [Nat.add_comm] at hcheck
        refine ⟨k, first, i + 1, s, ⟨rfl, hk, hs, fun hagrees => ?_, fun j t hj ht => ?_⟩, hcheck⟩
        · rw [checkPart_of_agreesOff hagrees] at hcheck
          cases hcheck
        · cases j with
          | zero => exact Option.some.inj ht ▸ .refl k first
          | succ j => exact hbefore j t (Nat.lt_of_succ_lt_succ hj) ht
    · rintro ⟨⟨k, first', position, s, hmisfit, hcheck⟩, hgoes⟩
      obtain rfl := Option.some.inj hmisfit.head
      have hjoin : concatUnder c (first :: ss) axis =
          joinParts c k first 1 (first.getD k 0) ss >>= fun size => .ok (first.set k size) := by
        rw [concatUnder, hmisfit.axis_eq]
        rfl
      rw [hjoin] at hgoes ⊢
      refine bind_eq_error_iff.mpr (Or.inl ((joinParts_eq_error_iff hne).mpr ⟨?_, fun h =>
        hgoes (bind_eq_error_iff.mpr (Or.inl h))⟩))
      cases position with
      | zero =>
        -- the first part fits itself
        exact absurd (Option.some.inj hmisfit.part ▸ .refl k first) hmisfit.misfit
      | succ i =>
        refine ⟨i, s, hmisfit.part,
          fun j t hj => hmisfit.before (j + 1) t (Nat.succ_lt_succ hj), ?_⟩
        rw [Nat.add_comm, hcheck]

/-- A program that ends while it joins shapes checks its sums, and the sizes along the axis are
together more than a word. -/
theorem concatUnder_eq_abort (h : concatUnder c ss axis = .error .abort) :
    c = .abort ∧ ∃ first k, ss.head? = some first ∧ normalizeAxis axis first.rank = .ok k ∧
      Word.count ≤ (ss.map (·.getD k 0)).sum := by
  cases ss with
  | nil => cases h
  | cons first ss =>
    obtain h | ⟨k, hk, h⟩ := bind_eq_error_iff.mp h
    · cases normalizeAxis_eq_error h
    · obtain h | ⟨_, -, ⟨⟩⟩ := bind_eq_error_iff.mp h
      obtain ⟨hc, hlarge⟩ := joinParts_eq_abort h
      exact ⟨hc, first, k, rfl, hk, hlarge⟩

/-- A rank is reported if the first part that does not fit has another one than the first part. -/
theorem concatUnder_eq_partRank_iff :
    concatUnder c ss axis = .error (.partRank position m n) ↔
      (∃ k first s, FirstMisfit ss axis k first position s ∧
        first.rank = m ∧ s.rank = n ∧ m ≠ n) ∧ concatUnder c ss axis ≠ .error .abort := by
  rw [concatUnder_eq_error_iff rfl]
  refine and_congr_left fun _ => ?_
  constructor
  · rintro ⟨k, first, position', s, hmisfit, hcheck⟩
    obtain ⟨hrank, he⟩ | ⟨-, d, m', n', -, he⟩ := checkPart_eq_error_iff.mp hcheck
    · obtain ⟨rfl, rfl, rfl⟩ := ShapeError.partRank.inj he
      exact ⟨k, first, s, hmisfit, rfl, rfl, Ne.symm hrank⟩
    · cases he
  · rintro ⟨k, first, s, hmisfit, rfl, rfl, hrank⟩
    exact ⟨k, first, position, s, hmisfit,
      checkPart_eq_error_iff.mpr (Or.inl ⟨Ne.symm hrank, rfl⟩)⟩

/-- A size is reported if the first part that does not fit has as many axes as the first part, and
it is that of the first axis on which they differ. -/
theorem concatUnder_eq_partSize_iff :
    concatUnder c ss axis = .error (.partSize d position m n) ↔
      (∃ k first s, FirstMisfit ss axis k first position s ∧
        s.rank = first.rank ∧ FirstDifference k first s d m n) ∧
      concatUnder c ss axis ≠ .error .abort := by
  rw [concatUnder_eq_error_iff rfl]
  refine and_congr_left fun _ => ?_
  constructor
  · rintro ⟨k, first, position', s, hmisfit, hcheck⟩
    obtain ⟨-, he⟩ | ⟨hrank, d', m', n', hdiffers, he⟩ := checkPart_eq_error_iff.mp hcheck
    · cases he
    · obtain ⟨rfl, rfl, rfl, rfl⟩ := ShapeError.partSize.inj he
      exact ⟨k, first, s, hmisfit, hrank, hdiffers⟩
  · rintro ⟨k, first, s, hmisfit, hrank, hdiffers⟩
    exact ⟨k, first, position, s, hmisfit,
      checkPart_eq_error_iff.mpr (Or.inr ⟨hrank, d, m, n, hdiffers, rfl⟩)⟩

/-! ### All operations -/

/-- **Shape errors name the first offender.** A matrix product names unequal inner sizes exactly if
they are the last size of the left operand and the second-to-last of the right one, or its only one,
and differ; so does a dot product, with the operands as they are and the two axes. Joining parts
names a position with a rank or with two sizes exactly if the part there is the first that does not
fit, and then its rank or the first axis on which it differs; unless the program ends before, which
it only does if it checks its sums and the sizes along the axis are together more than a word. An
index of a tensor whose sizes are words with a sign names a position exactly if it is not one of its
axis, which is there and has the size that is named, and the selectors in front of it succeed on the
axes in front of that one; it names too many selectors exactly if there are more of them than axes;
and no selector of its loop is ever without an axis. -/
theorem shape_errors_name_first_offender :
    (∀ l r m n, matmul l r = .error (.innerSizes m n) ↔
      l.getLast? = some m ∧ r[r.rank - 2]? = some n ∧ m ≠ n) ∧
    (∀ l r left right m i n j, dot l r = .error (.notAligned left right m i n j) ↔
      (left = l ∧ right = r ∧ i = l.rank - 1 ∧ j = r.rank - 2) ∧
        l[i]? = some m ∧ r[j]? = some n ∧ m ≠ n) ∧
    (∀ c ss axis position m n, concatUnder c ss axis = .error (.partRank position m n) ↔
      (∃ k first s, FirstMisfit ss axis k first position s ∧
        first.rank = m ∧ s.rank = n ∧ m ≠ n) ∧ concatUnder c ss axis ≠ .error .abort) ∧
    (∀ c ss axis d position m n, concatUnder c ss axis = .error (.partSize d position m n) ↔
      (∃ k first s, FirstMisfit ss axis k first position s ∧
        s.rank = first.rank ∧ FirstDifference k first s d m n) ∧
      concatUnder c ss axis ≠ .error .abort) ∧
    (∀ c ss axis, concatUnder c ss axis = .error .abort → c = .abort ∧
      ∃ first k, ss.head? = some first ∧ normalizeAxis axis first.rank = .ok k ∧
        Word.count ≤ (ss.map (·.getD k 0)).sum) ∧
    ∀ s : Shape, (∀ n ∈ s, n < Word.half) → ∀ sels,
      (∀ i a n, index s sels = .error (.indexOutOfBounds i a n) ↔
        sels.count .ellipsis ≤ 1 ∧ sels.countP Selector.takesAxis ≤ s.rank ∧
          ∃ front back o, sels = front ++ .int i :: back ∧ a = s.axisBetween front (.int i) back ∧
            s[a]? = some n ∧ ¬(-n ≤ i ∧ i < n) ∧ index (s.take a) front = .ok o) ∧
      (∀ rank given, index s sels = .error (.tooManyIndices rank given) ↔
        sels.count .ellipsis ≤ 1 ∧ rank = s.rank ∧ given = sels.countP Selector.takesAxis ∧
          rank < given) ∧
      ∀ fallback, indexOr fallback s sels = index s sels :=
  ⟨fun _ _ _ _ => matmul_eq_innerSizes_iff, fun _ _ _ _ _ _ _ _ => dot_eq_notAligned_iff,
    fun _ _ _ _ _ _ => concatUnder_eq_partRank_iff,
    fun _ _ _ _ _ _ _ => concatUnder_eq_partSize_iff, fun _ _ _ => concatUnder_eq_abort,
    fun _ hs _ => ⟨fun _ _ _ => index_eq_indexOutOfBounds_iff hs,
      fun _ _ => index_eq_tooManyIndices_iff hs, indexOr_eq_index⟩⟩

/-- Two products, parts of which the third is the first that does not fit, and an index with an
ellipsis in front of a position that its axis does not have. -/
theorem offenders_of_four_operations :
    (∀ n ∈ [4, 5, 6], n < Word.half) ∧
      matmul [2, 3] [4] = .error (.innerSizes 3 4) ∧
      dot [2, 3] [5, 4, 6] = .error (.notAligned [2, 3] [5, 4, 6] 3 1 4 1) ∧
      (∃ k first s, FirstMisfit [[2, 3], [2, 9], [4, 8], [2]] (-1) k first 2 s ∧
        s.rank = first.rank ∧ FirstDifference k first s 0 2 4) ∧
      index [4, 5, 6] [.ellipsis, .int 7, .full] = .error (.indexOutOfBounds 7 1 5) := by
  have hs : ∀ n ∈ [4, 5, 6], n < Word.half := by decide
  obtain ⟨hmatmul, hdot, -, hconcat, -, hindex⟩ := shape_errors_name_first_offender
  refine ⟨hs, (hmatmul _ _ _ _).mpr ⟨rfl, rfl, by decide⟩,
    (hdot _ _ _ _ _ _ _ _).mpr ⟨⟨rfl, rfl, rfl, rfl⟩, rfl, rfl, by decide⟩,
    ((hconcat .abort _ _ _ _ _ _).mp rfl).1, ?_⟩
  exact ((hindex _ hs _).1 _ _ _).mpr
    ⟨by decide, by decide, [.ellipsis], [.full], [4], rfl, rfl, rfl, by decide, rfl⟩

end ShapeFault.Shape
