import ShapeFault.Proofs.Shape.Index
import ShapeFault.Proofs.Shape.Slice
import ShapeFault.Proofs.Tensor.Nesting
import ShapeFault.Tensor.Host

/-!
# Indexing a list and indexing its array

A list and the array that is made of it are indexed in two ways that are written apart from each
other: the list gives up its members, and of the array the first axis is looked at. Both give the
same (`index_array_eq_array_index`). An integer picks a member, whose shape is what is left of that
of the array, and a slice picks as many members as it leaves positions of the axis. Only an empty
selection is different, since a list without members does not know what shape its members had.
-/

namespace ShapeFault

namespace IndexValue

/-- What may stand for a bound of a slice, and the bound that it stands for. -/
inductive IsBound : Option Value → Option Int → Prop where
  | absent : IsBound none none
  | none : IsBound (some .none) none
  | int (n : Int) : IsBound (some (.int n)) (some n)
  | bool (b : Bool) : IsBound (some (.bool b)) (some b.toInt)

variable {start stop step : Option Value} {i j k : Option Int}

theorem IsBound.bound_eq {v : Option Value} {n : Option Int} (h : IsBound v n) (position : Nat) :
    bound position v = .ok n := by
  cases h with
  | bool b => cases b <;> rfl
  | _ => rfl

theorem selector_slice (hi : IsBound start i) (hj : IsBound stop j) (hk : IsBound step k) :
    selector (.slice start stop step) = .ok (.slice ⟨i, j, k⟩) := by
  simp only [selector, sliceOf, hi.bound_eq, hj.bound_eq, hk.bound_eq]
  rfl

end IndexValue

namespace Value

variable {vs : List Value} {s : Shape} {start stop step : Option Value} {i j k : Option Int}

/-- An integer picks the member at its position, counted from the end if it is negative. -/
theorem index_list_int (i : Int) : (list vs).index [.value (.int i)] =
    match Slice.member? vs (if i < 0 then i + vs.length else i) with
    | some v => .ok v
    | Option.none => .error .listIndexOutOfRange := by
  generalize hp : (if i < 0 then i + vs.length else i) = p
  have hselect : (list vs).index [.value (.int i)] = if p < 0 then .error .listIndexOutOfRange else
      match vs[p.toNat]? with
      | some v => .ok v
      | Option.none => .error .listIndexOutOfRange := by
    subst hp
    rfl
  rw [hselect, Slice.member?]
  split <;> rfl

theorem index_tensor_int {n : Nat} (hn : n < Word.half) (i : Int) :
    (tensor (n :: s)).index [.value (.int i)] =
      if -n ≤ i ∧ i < n then .ok (tensor s) else .error (.shape (.indexOutOfBounds i 0 n)) := by
  change ofShape (Shape.index (n :: s) [.int i]) = _
  rw [Shape.index_int hn]
  split <;> rfl

theorem index_list_slice (hi : IndexValue.IsBound start i) (hj : IndexValue.IsBound stop j)
    (hk : IndexValue.IsBound step k) : (list vs).index [.slice start stop step] =
      match Slice.select ⟨i, j, k⟩ vs with
      | .ok ws => .ok (list ws)
      | .error e => .error (.shape e) := by
  rw [index, indexList, IndexValue.selector_slice hi hj hk]
  rfl

theorem index_tensor_slice {n : Nat} (hi : IndexValue.IsBound start i)
    (hj : IndexValue.IsBound stop j) (hk : IndexValue.IsBound step k) :
    (tensor (n :: s)).index [.slice start stop step] =
      match Slice.count ⟨i, j, k⟩ n with
      | .ok m => .ok (tensor (m :: s))
      | .error e => .error (.shape e) := by
  rw [index, IndexValue.selectors, IndexValue.selector_slice hi hj hk]
  change ofShape (Shape.index (n :: s) [.slice ⟨i, j, k⟩]) = _
  rw [Shape.index_slice]
  cases Slice.count ⟨i, j, k⟩ n <;> rfl

/-- An integer that is a position of a list picks a member of the shape that it leaves of the shape
of the list. -/
theorem exists_index_int (hlen : vs.length < Word.half) (members : ∀ v ∈ vs, v.HasShape s) {i : Int}
    (hi : -vs.length ≤ i ∧ i < vs.length) : ∃ v, v.HasShape s ∧
      (list vs).index [.value (.int i)] = .ok v ∧
      (tensor (vs.length :: s)).index [.value (.int i)] = .ok (tensor s) := by
  obtain ⟨v, hv⟩ : ∃ v, Slice.member? vs (if i < 0 then i + vs.length else i) = some v :=
    Slice.exists_member? (by omega) (by omega)
  refine ⟨v, members v (Slice.mem_of_member? hv), ?_, ?_⟩
  · rw [index_list_int, hv]
  · rw [index_tensor_int hlen, if_pos hi]

theorem index_int_of_outside (hlen : vs.length < Word.half) {i : Int}
    (hi : ¬(-vs.length ≤ i ∧ i < vs.length)) :
    (list vs).index [.value (.int i)] = .error .listIndexOutOfRange ∧
      (tensor (vs.length :: s)).index [.value (.int i)] =
        .error (.shape (.indexOutOfBounds i 0 vs.length)) := by
  constructor
  · rw [index_list_int, Slice.member?_eq_none (by omega)]
  · rw [index_tensor_int hlen, if_neg hi]

/-- A slice that is not of step zero selects members of a list, and changes the first size of its
shape to their number. -/
theorem exists_index_slice (hlen : vs.length < Word.half) (hi : IndexValue.IsBound start i)
    (hj : IndexValue.IsBound stop j) (hk : IndexValue.IsBound step k) (hne : k ≠ some 0) :
    ∃ ws ⊆ vs, (list vs).index [.slice start stop step] = .ok (list ws) ∧
      (tensor (vs.length :: s)).index [.slice start stop step] = .ok (tensor (ws.length :: s)) := by
  obtain ⟨ws, hws, hmap⟩ := Slice.exists_select (s := ⟨i, j, k⟩) hlen hne
  refine ⟨ws, fun v hv => ?_, ?_, ?_⟩
  · -- a selected value is the member at one of the positions
    have hsome := List.mem_map_of_mem (f := some) hv
    rw [hmap] at hsome
    obtain ⟨p, -, hp⟩ := List.mem_map.mp hsome
    exact Slice.mem_of_member? hp
  · rw [index_list_slice hi hj hk, hws]
  · rw [index_tensor_slice hi hj hk, Slice.count_of_step_ne_zero hlen hne,
      Slice.length_of_select hlen hne hws]

theorem index_slice_of_zero_step (hi : IndexValue.IsBound start i) (hj : IndexValue.IsBound stop j)
    (hk : IndexValue.IsBound step (some 0)) :
    (list vs).index [.slice start stop step] = .error (.shape .zeroStep) ∧
      (tensor (vs.length :: s)).index [.slice start stop step] = .error (.shape .zeroStep) := by
  constructor
  · rw [index_list_slice hi hj hk, Slice.select_of_step_eq_zero rfl]
  · rw [index_tensor_slice hi hj hk, Slice.count_of_step_eq_zero rfl]

end Value

/-- An array is made of a value exactly if the value is rectangular, and it has the shape of the
value. -/
theorem call_array_eq_ok_iff {v a : Value} :
    tensorHost (.call (.function .array) [v]) = .ok a ↔ ∃ s, v.HasShape s ∧ a = .tensor s := by
  have hcall : tensorHost (.call (.function .array) [v]) = v.arrayShape.map .tensor := by
    change (do let s ← v.arrayShape; .ok (Value.tensor s)) = _
    cases v.arrayShape <;> rfl
  simp only [hcall, ← Value.arrayShape_eq_ok_iff]
  cases v.arrayShape with
  | error e => constructor <;> nofun
  | ok s =>
    constructor
    · rintro ⟨⟩
      exact ⟨s, rfl, rfl⟩
    · rintro ⟨t, ⟨⟩, rfl⟩
      rfl

/-- **Indexing a list and indexing the array that is made of it agree.** At an integer that is a
position of the list, the array of its member is the member of its array; at any other integer both
fail, and not for shapes. A slice selects as many members as it keeps positions of the first axis,
and the array of what it selects is what it selects from the array, unless this is nothing; a step
of zero is refused for both. No list of `Word.half` members or more fits in memory. -/
theorem index_array_eq_array_index {vs : List Value} {a : Value} (hlen : vs.length < Word.half)
    (ha : tensorHost (.call (.function .array) [.list vs]) = .ok a) :
    (∀ i : Int,
      (-vs.length ≤ i ∧ i < vs.length ∧ ∃ v s,
        tensorHost (.index (.list vs) [.value (.int i)]) = .ok v ∧
        tensorHost (.call (.function .array) [v]) = .ok (.tensor s) ∧
        tensorHost (.index a [.value (.int i)]) = .ok (.tensor s)) ∨
      (¬(-vs.length ≤ i ∧ i < vs.length) ∧ ∃ e f,
        tensorHost (.index (.list vs) [.value (.int i)]) = .error e ∧ e.isShapeClass = false ∧
        tensorHost (.index a [.value (.int i)]) = .error f ∧ f.isShapeClass = false)) ∧
    ∀ start stop step i j k, IndexValue.IsBound start i → IndexValue.IsBound stop j →
      IndexValue.IsBound step k →
        (k = some 0 →
          tensorHost (.index (.list vs) [.slice start stop step]) = .error (.shape .zeroStep) ∧
          tensorHost (.index a [.slice start stop step]) = .error (.shape .zeroStep)) ∧
        (k ≠ some 0 → ∃ ws s,
          tensorHost (.index (.list vs) [.slice start stop step]) = .ok (.list ws) ∧
          tensorHost (.index a [.slice start stop step]) = .ok (.tensor (ws.length :: s)) ∧
          (ws ≠ [] →
            tensorHost (.call (.function .array) [.list ws]) =
              .ok (.tensor (ws.length :: s)))) := by
  -- the members have a common shape, and the array has one axis more
  obtain ⟨t, hlist, rfl⟩ := call_array_eq_ok_iff.mp ha
  obtain ⟨s, members, rfl⟩ : ∃ s, (∀ v ∈ vs, v.HasShape s) ∧ t = vs.length :: s := by
    cases hlist with
    | list members empty => exact ⟨_, members, rfl⟩
  constructor
  · intro i
    by_cases hi : -vs.length ≤ i ∧ i < vs.length
    · obtain ⟨v, hv, hindex, harray⟩ := Value.exists_index_int hlen members hi
      exact Or.inl ⟨hi.1, hi.2, v, s, hindex, call_array_eq_ok_iff.mpr ⟨s, hv, rfl⟩, harray⟩
    · obtain ⟨hindex, harray⟩ := Value.index_int_of_outside (s := s) hlen hi
      exact Or.inr ⟨hi, _, _, hindex, rfl, harray, rfl⟩
  · intro start stop step i j k hi hj hk
    constructor
    · rintro rfl
      exact Value.index_slice_of_zero_step hi hj hk
    · intro hne
      obtain ⟨ws, hsubset, hindex, harray⟩ := Value.exists_index_slice hlen hi hj hk hne
      refine ⟨ws, s, hindex, harray, fun hws => call_array_eq_ok_iff.mpr ⟨_, ?_, rfl⟩⟩
      exact .list (fun v hv => members v (hsubset hv)) fun h => absurd h hws

/-- Three rows of two, of which the second is a tensor. -/
def threeRows : List Value :=
  [.list [.int 1, .bool true], .tensor [2], .list [.int 5, .int 6]]

/-- The rows indexed by `-2`, and sliced by `True:None:-1`. -/
theorem index_array_of_three_rows :
    threeRows.length < Word.half ∧
      tensorHost (.call (.function .array) [.list threeRows]) = .ok (.tensor [3, 2]) ∧
      (∃ v, tensorHost (.index (.list threeRows) [.value (.int (-2))]) = .ok v ∧
        tensorHost (.call (.function .array) [v]) = .ok (.tensor [2])) ∧
      ∃ ws, tensorHost (.index (.list threeRows)
          [.slice (some (.bool true)) (some .none) (some (.int (-1)))]) = .ok (.list ws) ∧
        tensorHost (.call (.function .array) [.list ws]) = .ok (.tensor [2, 2]) := by
  have hlen : threeRows.length < Word.half := by decide
  have ha : tensorHost (.call (.function .array) [.list threeRows]) = .ok (.tensor [3, 2]) := rfl
  obtain ⟨hint, hslice⟩ := index_array_eq_array_index hlen ha
  refine ⟨hlen, ha, ?_, ?_⟩
  · rcases hint (-2) with ⟨-, -, v, s, hv, harray, hs⟩ | ⟨houtside, -⟩
    · cases hs
      exact ⟨v, hv, harray⟩
    · exact absurd (by decide) houtside
  · obtain ⟨ws, s, hws, hs, harray⟩ :=
      (hslice _ _ _ _ _ _ (.bool true) .none (.int (-1))).2 (by decide)
    have hshape : [2, 2] = ws.length :: s := Value.tensor.inj (Except.ok.inj hs)
    refine ⟨ws, hws, hshape ▸ harray ?_⟩
    rintro rfl
    cases hshape

end ShapeFault
