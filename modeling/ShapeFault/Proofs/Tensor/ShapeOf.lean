import ShapeFault.Proofs.Shape.Reshape
import ShapeFault.Tensor.Host

/-!
# The shape of one tensor given to another

The attribute `shape` of a tensor lists its sizes as integers. They can be given to functions that
make a tensor and to methods that reshape one, as one list or one by one: both ways of writing the
arguments stand for the same request (`Argument.sizes_list`, `Argument.sizes_sizeValues`), the
request for the sizes of the tensor.

Main statement: tensors are made of the given shape, and a tensor is reshaped to it exactly if both
have as many elements (`shape_is_given_to_tensor`).
-/

namespace ShapeFault

/-- The sizes of a shape as integer values. -/
def Shape.sizeValues (s : Shape) : List Value :=
  s.map fun n : Nat => .int n

/-! ### Sizes as arguments -/

namespace Argument

variable {function : String}

theorem ints_sizeValues (position : Nat) (s : Shape) :
    ints function position s.sizeValues = .ok s.request := by
  induction s generalizing position with
  | nil => rfl
  | cons n s ih =>
    change (ints function (position + 1) (Shape.sizeValues s) >>= fun ns =>
      .ok ((n : Int) :: ns)) = _
    rw [ih]
    rfl

/-- Sizes in one list are the request for them. -/
theorem sizes_list (s : Shape) : sizes function [.list s.sizeValues] = .ok s.request :=
  ints_sizeValues 0 s

/-- **Sizes one by one** are the same request. -/
theorem sizes_sizeValues (s : Shape) : sizes function s.sizeValues = .ok s.request := by
  unfold sizes
  split
  next vs hvs =>
    -- a size is an integer and no list
    cases s with
    | nil => cases hvs
    | cons n s => cases hvs
  next => exact ints_sizeValues 0 s

theorem naturals_request (position : Nat) (s : Shape) :
    naturals function position s.request = .ok s := by
  induction s generalizing position with
  | nil => rfl
  | cons n s ih =>
    change (if (n : Int) < 0 then _ else _) = _
    rw [if_neg (Int.not_lt.mpr (Int.natCast_nonneg n))]
    change (naturals function (position + 1) (Shape.request s) >>= fun s =>
      .ok ((n : Int).toNat :: s)) = _
    rw [ih]
    rfl

end Argument

namespace Value

variable {x y : Shape}

/-- The sizes of a tensor are listed as they are if they are words with a sign. -/
theorem member_shape (hx : ∀ n ∈ x, n < Word.half) :
    tensorHost (.member (.tensor x) "shape") = .ok (.list x.sizeValues) := by
  have hsizes : x.map (fun n => Value.int (Word.asSigned n)) = x.map fun n : Nat => .int n :=
    List.map_congr_left fun n hn => congrArg Value.int (Word.asSigned_of_lt (hx n hn))
  exact congrArg (fun vs => Except.ok (Value.list vs)) hsizes

/-- Functions that make a tensor of given sizes. -/
theorem call_filled {f : Builtin} (hf : f = .zeros ∨ f = .ones) {args : List Value}
    (hne : args ≠ []) (hargs : Argument.sizes f.name args = .ok x.request) :
    tensorHost (.call (.function f) args) = .ok (.tensor x) := by
  have hcall : tensorHost (.call (.function f) args) = f.filled args := by
    obtain ⟨v, args, rfl⟩ := List.exists_cons_of_ne_nil hne
    rcases hf with rfl | rfl <;> rfl
  rw [hcall, Builtin.filled, hargs]
  change (Argument.naturals f.name 0 x.request >>= fun s => .ok (Value.tensor s)) = _
  rw [Argument.naturals_request]
  rfl

theorem call_reshape {args : List Value} (hne : args ≠ [])
    (hargs : Argument.sizes Method.reshape.name args = .ok x.request) :
    tensorHost (.call (.method y .reshape) args) = ofShape (y.reshape x.request) := by
  have hcall : tensorHost (.call (.method y .reshape) args) =
      Argument.sizes Method.reshape.name args >>= fun r => ofShape (y.reshape r) := by
    obtain ⟨v, args, rfl⟩ := List.exists_cons_of_ne_nil hne
    rfl
  rw [hcall, hargs]
  rfl

end Value

/-! ### The shape of a tensor as an argument -/

variable {x : Shape}

/-- **The shape of one tensor can be given to another.** The attribute `shape` of a tensor whose
sizes are words with a sign lists these sizes. In both libraries, the functions for tensors of given
sizes make one of the same shape of this list. The methods of a tensor for reshaping give it this
shape if both tensors have as many elements, a number that is a word; otherwise they fail, and for
the shapes. If the tensor has axes, all of them give the same for the sizes one by one. -/
theorem shape_is_given_to_tensor (hx : ∀ n ∈ x, n < Word.half) :
    ∃ sizes : List Value, tensorHost (.member (.tensor x) "shape") = .ok (.list sizes) ∧
      (∀ lib : Library, ∀ id ∈ ["zeros", "ones"], ∃ f,
        tensorHost (.member (.library lib) id) = .ok f ∧
        tensorHost (.call f [.list sizes]) = .ok (.tensor x) ∧
        (1 ≤ x.rank → tensorHost (.call f sizes) = tensorHost (.call f [.list sizes]))) ∧
      ∀ y : Shape, ∀ id ∈ ["reshape", "view"], ∃ f,
        tensorHost (.member (.tensor y) id) = .ok f ∧
        ((∃ n, x.elementCount = some n ∧ y.elementCount = some n) →
          tensorHost (.call f [.list sizes]) = .ok (.tensor x)) ∧
        ((¬∃ n, x.elementCount = some n ∧ y.elementCount = some n) →
          ∃ e, tensorHost (.call f [.list sizes]) = .error e ∧ e.isShapeClass = true) ∧
        (1 ≤ x.rank → tensorHost (.call f sizes) = tensorHost (.call f [.list sizes])) := by
  have hlist : [Value.list x.sizeValues] ≠ [] := List.cons_ne_nil _ _
  have hsizes (hrank : 1 ≤ x.rank) : x.sizeValues ≠ [] := fun hnil => by
    rw [List.map_eq_nil_iff.mp hnil] at hrank
    cases hrank
  refine ⟨x.sizeValues, Value.member_shape hx, fun lib id hid => ?_, fun y id hid => ?_⟩
  · obtain ⟨f, hf, hmember⟩ : ∃ f, (f = Builtin.zeros ∨ f = Builtin.ones) ∧
        tensorHost (.member (.library lib) id) = .ok (.function f) := by
      simp only [List.mem_cons, List.not_mem_nil, or_false] at hid
      rcases hid with rfl | rfl
      · exact ⟨.zeros, Or.inl rfl, by cases lib <;> rfl⟩
      · exact ⟨.ones, Or.inr rfl, by cases lib <;> rfl⟩
    have hcall := Value.call_filled hf hlist (Argument.sizes_list x)
    exact ⟨.function f, hmember, hcall, fun hrank =>
      (Value.call_filled hf (hsizes hrank) (Argument.sizes_sizeValues x)).trans hcall.symm⟩
  · have hmember : tensorHost (.member (.tensor y) id) = .ok (.method y .reshape) := by
      simp only [List.mem_cons, List.not_mem_nil, or_false] at hid
      rcases hid with rfl | rfl <;> rfl
    have hcall := Value.call_reshape (y := y) hlist (Argument.sizes_list x)
    refine ⟨.method y .reshape, hmember, fun hcount => ?_, fun hcount => ?_, fun hrank => ?_⟩
    · rw [hcall, Shape.reshape_request, if_pos hcount]
      rfl
    · rw [hcall, Shape.reshape_request, if_neg hcount]
      exact ⟨_, rfl, rfl⟩
    · rw [hcall, Value.call_reshape (hsizes hrank) (Argument.sizes_sizeValues x)]

/-- The shape of a tensor without elements, given to one of another shape and to one with
elements. -/
theorem shape_without_elements_is_given :
    (∀ n ∈ [2, 0, 3], n < Word.half) ∧
      ∃ sizes : List Value, tensorHost (.member (.tensor [2, 0, 3]) "shape") = .ok (.list sizes) ∧
        ∃ f g, tensorHost (.member (.tensor [0, 5]) "view") = .ok f ∧
          tensorHost (.call f sizes) = .ok (.tensor [2, 0, 3]) ∧
          tensorHost (.member (.tensor [6]) "view") = .ok g ∧
          ∃ e, tensorHost (.call g sizes) = .error e ∧ e.isShapeClass = true := by
  have hx : ∀ n ∈ [2, 0, 3], n < Word.half := by decide
  obtain ⟨sizes, hshape, -, hreshape⟩ := shape_is_given_to_tensor hx
  obtain ⟨f, hf, hsame, -, hspread⟩ := hreshape [0, 5] "view" (by decide)
  obtain ⟨g, hg, -, hfails, hspread'⟩ := hreshape [6] "view" (by decide)
  refine ⟨hx, sizes, hshape, f, g, hf, ?_, hg, ?_⟩
  · rw [hspread (by decide)]
    exact hsame ⟨0, rfl, rfl⟩
  · rw [hspread' (by decide)]
    refine hfails ?_
    rintro ⟨n, hn, hn'⟩
    obtain rfl : 0 = n := Option.some.inj hn
    cases hn'

end ShapeFault
