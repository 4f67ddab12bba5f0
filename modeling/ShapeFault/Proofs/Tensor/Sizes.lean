import Mathlib.Algebra.BigOperators.Group.List.Basic
import Mathlib.Algebra.Order.Ring.Nat
import ShapeFault.Proofs.Tensor.ListIndex

/-!
# Sizes of a nested list

A nested list can be read with lists of indices: `Value.at?` goes into a value, one list deeper for
each index. A value has the sizes `dims` if what is read in it, behind `k` indices, is a list of
length `dims[k]` or else a number or a tensor of shape `dims[k..]` (`Value.Sized`). The sizes of a
list are its length and the sizes that all its members have (`Value.sized_list_iff`), so they can be
followed along the definition of a rectangular value.

Main statement: the array that is made of a value has the sizes of the value, and as many elements
as there are scalars in it; and if no list in the value is empty, every value that has sizes makes
an array (`array_has_sizes_of_nested_list`). An empty list says nothing of the sizes behind its
length: `[[], []]` has the sizes `(2, 0)` and `(2, 0, 7)`, and makes an array of the first ones
only.
-/

namespace ShapeFault

namespace Value

/-! ### What stands in a value -/

/-- What is read in a value with a list of indices, the outermost first. -/
def at? (v : Value) : (path : List Nat) → Option Value
  | [] => some v
  | i :: path =>
    match v with
    | list vs => vs[i]?.bind (at? · path)
    | _ => Option.none

mutual

/-- The number of scalars in a value; a tensor holds as many as the product of its sizes. -/
def scalars : Value → Nat
  | int _ | float _ | bool _ => 1
  | tensor s => s.prod
  | list vs => scalarsOf vs
  | _ => 0

/-- The number of scalars in the members of a list. -/
def scalarsOf : List Value → Nat
  | [] => 0
  | v :: vs => scalars v + scalarsOf vs

end

/-- The value is made of lists, numbers and tensors, and `dims` are its sizes: a list behind `k`
indices has the length `dims[k]`, a number or a tensor behind `k` indices has the shape that is left
of `dims` behind the first `k` sizes. -/
structure Sized (v : Value) (dims : Shape) : Prop where
  isNested : ∀ path w, v.at? path = some w → (∃ vs, w = list vs) ∨ ∃ s, w.broadcastShape? = some s
  length_list : ∀ path vs, v.at? path = some (list vs) → dims[path.length]? = some vs.length
  shape_leaf : ∀ path w s, v.at? path = some w → w.broadcastShape? = some s →
    path.length ≤ dims.rank ∧ dims.drop path.length = s

/-- Some list in the value is empty. -/
def HasEmptyList (v : Value) : Prop :=
  ∃ path, v.at? path = some (list [])

variable {v w : Value} {vs : List Value} {s dims : Shape}

theorem at?_list_cons_eq_some_iff {i : Nat} {path : List Nat} :
    (list vs).at? (i :: path) = some w ↔ ∃ v, vs[i]? = some v ∧ v.at? path = some w :=
  Option.bind_eq_some_iff

/-- Nothing can be read in a value that is no list, but the value itself. -/
theorem at?_eq_some_of_broadcastShape? (hv : v.broadcastShape? = some s) {path : List Nat}
    (h : v.at? path = some w) : path = [] ∧ w = v := by
  cases path with
  | nil => exact ⟨rfl, (Option.some.inj h).symm⟩
  | cons i path => cases v <;> first | cases h | cases hv

theorem list_ne_of_broadcastShape? (hv : v.broadcastShape? = some s) : v ≠ list vs := by
  rintro rfl
  cases hv

/-! ### The sizes of a list and of its members -/

/-- **A number or a tensor** has its shape for its sizes. -/
theorem sized_leaf_iff (hv : v.broadcastShape? = some s) : v.Sized dims ↔ dims = s := by
  constructor
  · intro h
    exact (h.shape_leaf [] v s rfl hv).2
  · rintro rfl
    refine ⟨fun path w hw => ?_, fun path vs hw => ?_, fun path w t hw ht => ?_⟩
    · obtain ⟨-, rfl⟩ := at?_eq_some_of_broadcastShape? hv hw
      exact Or.inr ⟨dims, hv⟩
    · obtain ⟨-, hlist⟩ := at?_eq_some_of_broadcastShape? hv hw
      exact absurd hlist.symm (list_ne_of_broadcastShape? hv)
    · obtain ⟨rfl, rfl⟩ := at?_eq_some_of_broadcastShape? hv hw
      exact ⟨Nat.zero_le _, Option.some.inj (hv.symm.trans ht)⟩

/-- **A list** has its length for its first size, and the sizes of all its members behind. -/
theorem sized_list_iff :
    (list vs).Sized dims ↔ ∃ s, dims = vs.length :: s ∧ ∀ v ∈ vs, v.Sized s := by
  constructor
  · intro h
    cases dims with
    | nil => cases h.length_list [] vs rfl
    | cons n s =>
      have hn : n = vs.length := Option.some.inj (h.length_list [] vs rfl)
      refine ⟨s, congrArg (· :: s) hn, fun v hv => ?_⟩
      obtain ⟨i, hi⟩ := List.getElem?_of_mem hv
      have hat {path : List Nat} {w : Value} (hw : v.at? path = some w) :
          (list vs).at? (i :: path) = some w :=
        at?_list_cons_eq_some_iff.mpr ⟨v, hi, hw⟩
      refine ⟨fun path w hw => h.isNested _ w (hat hw),
        fun path us hw => h.length_list _ us (hat hw), fun path w t hw ht => ?_⟩
      obtain ⟨hle, hdrop⟩ := h.shape_leaf _ w t (hat hw) ht
      exact ⟨Nat.le_of_succ_le_succ hle, hdrop⟩
  · rintro ⟨s, rfl, members⟩
    -- what is read in the list is the list, or is read in one of its members
    have hcases {path : List Nat} {w : Value} (hw : (list vs).at? path = some w) :
        path = [] ∧ w = list vs ∨
          ∃ i rest, ∃ v : Value, path = i :: rest ∧ v.Sized s ∧ v.at? rest = some w := by
      cases path with
      | nil => exact Or.inl ⟨rfl, (Option.some.inj hw).symm⟩
      | cons i path =>
        obtain ⟨v, hi, hv⟩ := at?_list_cons_eq_some_iff.mp hw
        exact Or.inr ⟨i, path, v, rfl, members v (List.mem_of_getElem? hi), hv⟩
    refine ⟨fun path w hw => ?_, fun path us hw => ?_, fun path w t hw ht => ?_⟩
    · rcases hcases hw with ⟨-, rfl⟩ | ⟨i, rest, v, -, hv, hrest⟩
      · exact Or.inl ⟨vs, rfl⟩
      · exact hv.isNested rest w hrest
    · rcases hcases hw with ⟨rfl, hlist⟩ | ⟨i, rest, v, rfl, hv, hrest⟩
      · exact congrArg some (congrArg List.length (list.inj hlist)).symm
      · exact hv.length_list rest us hrest
    · rcases hcases hw with ⟨-, rfl⟩ | ⟨i, rest, v, rfl, hv, hrest⟩
      · cases ht
      · obtain ⟨hle, hdrop⟩ := hv.shape_leaf rest w t hrest ht
        exact ⟨Nat.succ_le_succ hle, hdrop⟩

theorem hasEmptyList_list_iff :
    (list vs).HasEmptyList ↔ vs = [] ∨ ∃ v ∈ vs, v.HasEmptyList := by
  constructor
  · rintro ⟨_ | ⟨i, path⟩, h⟩
    · exact Or.inl (list.inj (Option.some.inj h))
    · obtain ⟨v, hi, hv⟩ := at?_list_cons_eq_some_iff.mp h
      exact Or.inr ⟨v, List.mem_of_getElem? hi, path, hv⟩
  · rintro (rfl | ⟨v, hv, path, h⟩)
    · exact ⟨[], rfl⟩
    · obtain ⟨i, hi⟩ := List.getElem?_of_mem hv
      exact ⟨i :: path, at?_list_cons_eq_some_iff.mpr ⟨v, hi, h⟩⟩

theorem not_hasEmptyList_of_broadcastShape? (hv : v.broadcastShape? = some s) :
    ¬v.HasEmptyList := by
  rintro ⟨path, h⟩
  obtain ⟨-, hlist⟩ := at?_eq_some_of_broadcastShape? hv h
  exact list_ne_of_broadcastShape? hv hlist.symm

/-! ### Rectangular values -/

theorem scalarsOf_eq_sum (vs : List Value) : scalarsOf vs = (vs.map scalars).sum := by
  induction vs with
  | nil => rfl
  | cons v vs ih => rw [scalarsOf, ih, List.map_cons, List.sum_cons]

namespace HasShape

/-- The shape of a rectangular value lists its sizes. -/
theorem sized (h : v.HasShape s) : v.Sized s := by
  induction h with
  | tensor | int | float | bool => exact (sized_leaf_iff rfl).mpr rfl
  | list members empty ih => exact sized_list_iff.mpr ⟨_, rfl, ih⟩

/-- A rectangular value has as many scalars as its sizes multiply to. -/
theorem scalars_eq (h : v.HasShape s) : v.scalars = s.prod := by
  induction h with
  | tensor s => rw [scalars]
  | int | float | bool => rw [scalars, List.prod_nil]
  | @list vs s members empty ih =>
    have hmembers : vs.map scalars = List.replicate vs.length s.prod :=
      List.map_eq_replicate_iff.mpr ih
    rw [scalars, scalarsOf_eq_sum, hmembers, List.sum_replicate_nat, List.prod_cons]

end HasShape

/-- A value without empty lists is rectangular if it has sizes. -/
theorem Sized.hasShape : {v : Value} → {dims : Shape} → v.Sized dims → ¬v.HasEmptyList →
    v.HasShape dims
  | .list vs, dims, h, hempty => by
    obtain ⟨s, rfl, members⟩ := sized_list_iff.mp h
    rw [hasEmptyList_list_iff, not_or] at hempty
    exact .list (fun v hv => (members v hv).hasShape fun hv' => hempty.2 ⟨v, hv, hv'⟩)
      fun hnil => absurd hnil hempty.1
  | .tensor s, dims, h, _ => by
    obtain rfl := (sized_leaf_iff rfl).mp h
    exact .tensor _
  | .int _, dims, h, _ | .float _, dims, h, _ | .bool _, dims, h, _ => by
    obtain rfl := (sized_leaf_iff rfl).mp h
    constructor
  | .str _, _, h, _ | .none, _, h, _ | .library _, _, h, _ | .object _, _, h, _
  | .function _, _, h, _ | .method _ _, _, h, _ => by
    rcases h.isNested [] _ rfl with ⟨vs, hlist⟩ | ⟨s, hleaf⟩
    · cases hlist
    · cases hleaf
termination_by v => sizeOf v
decreasing_by
  have := List.sizeOf_lt_of_mem hv
  simp only [Value.list.sizeOf_spec]
  omega

end Value

/-- **An array has the sizes of the nested list that it is made of.** If an array is made of a
value, it is a tensor whose shape lists the sizes of the value: the value is made of lists, numbers
and tensors, a list behind `k` indices is as long as size `k` says, a number or a tensor behind `k`
indices has the shape of all sizes from there on; and there are as many scalars in the value as the
sizes multiply to. An array of these sizes can be made of every value that has sizes, if no list in
it is empty. -/
theorem array_has_sizes_of_nested_list (v : Value) :
    (∀ a, tensorHost (.call (.function .array) [v]) = .ok a →
      ∃ dims, a = .tensor dims ∧ v.Sized dims ∧ v.scalars = dims.prod) ∧
    ∀ dims, ¬v.HasEmptyList → v.Sized dims →
      tensorHost (.call (.function .array) [v]) = .ok (.tensor dims) := by
  constructor
  · intro a ha
    obtain ⟨dims, hshape, rfl⟩ := call_array_eq_ok_iff.mp ha
    exact ⟨dims, rfl, hshape.sized, hshape.scalars_eq⟩
  · intro dims hempty hsized
    exact call_array_eq_ok_iff.mpr ⟨dims, hsized.hasShape hempty, rfl⟩

/-- A row of two numbers, and a row that is a tensor. -/
def twoRows : Value :=
  .list [.list [.int 1, .bool true], .tensor [2]]

/-- The array of the rows has two rows of two elements, and they have sizes as it has. -/
theorem array_of_two_rows :
    tensorHost (.call (.function .array) [twoRows]) = .ok (.tensor [2, 2]) ∧
      twoRows.scalars = 4 ∧ ¬twoRows.HasEmptyList ∧ twoRows.Sized [2, 2] := by
  have harray : tensorHost (.call (.function .array) [twoRows]) = .ok (.tensor [2, 2]) := rfl
  obtain ⟨hmade, hback⟩ := array_has_sizes_of_nested_list twoRows
  obtain ⟨dims, hdims, hsized, hscalars⟩ := hmade _ harray
  obtain rfl : [2, 2] = dims := Value.tensor.inj hdims
  have hempty : ¬twoRows.HasEmptyList := by
    simp only [twoRows, Value.hasEmptyList_list_iff, List.mem_cons, List.not_mem_nil, or_false,
      exists_eq_or_imp, exists_eq_left, reduceCtorEq, false_or, not_or]
    refine ⟨⟨?_, ?_⟩, ?_⟩ <;> exact Value.not_hasEmptyList_of_broadcastShape? rfl
  exact ⟨hback _ hempty hsized, hscalars, hempty, hsized⟩

end ShapeFault
