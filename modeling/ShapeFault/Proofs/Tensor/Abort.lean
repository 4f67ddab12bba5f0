import ShapeFault.Proofs.Eval.Trap
import ShapeFault.Proofs.Shape.Offender
import ShapeFault.Proofs.Tensor.Failure

/-!
# When the program ends without an answer

A size or a place that leaves its word ends the program. Of all operations only two can end it: an
index, of a tensor that has a size which no word with a sign holds or of a list of such a length,
and a call that joins tensors whose sizes along some axis are together more than a word. These
operations are **oversized** (`Operation.Oversized`), and a program whose tensors have sizes that
their elements could be stored for meets none of them.

An evaluation that ends the program has come to an oversized operation
(`Node.exists_oversized_of_abort`).
-/

namespace ShapeFault

open Shape (bind_eq_ok_iff bind_eq_error_iff)

/-- The operations that work on sizes which are too large for their words. -/
inductive Operation.Oversized : Operation Value → Prop where
  /-- an index of a tensor with a size that no word with a sign holds -/
  | tensor {s : Shape} {items : List (IndexValue Value)} {n : Nat} (hmem : n ∈ s)
      (hlarge : Word.half ≤ n) : Oversized (.index (.tensor s) items)
  /-- an index of a list of such a length -/
  | list {vs : List Value} {items : List (IndexValue Value)} (hlarge : Word.half ≤ vs.length) :
      Oversized (.index (.list vs) items)
  /-- a call that joins tensors, of which the sizes along some axis are too much for a word -/
  | parts {ss : List Shape} {args : List Value} {k : Nat}
      (hlarge : Word.count ≤ (ss.map (·.getD k 0)).sum) :
      Oversized (.call (.function .concat) (.list (ss.map .tensor) :: args))

/-- Failures that are none of these do not end the program. -/
theorem FailsIn.ne_abort {α : Type} {x : Except HostError α}
    (h : FailsIn (HostError.Avoids ShapeError.isAbort) x) : x ≠ .error (.shape .abort) :=
  fun hx => h _ hx _ rfl rfl

/-! ### Operators -/

namespace Shape

/-- Shapes that are combined fail for a mismatch only. -/
theorem failsIn_broadcast_isMismatch (l r : Shape) : FailsIn (·.isMismatch) (broadcast l r) := by
  unfold broadcast
  split
  · exact .ok _
  · exact .error rfl

theorem failsIn_matmul_isMismatch (l r : Shape) : FailsIn (·.isMismatch) (matmul l r) := by
  unfold matmul
  split
  · exact .error rfl
  · exact .error rfl
  · refine .ite (.error rfl) ?_
    split
    · exact .ok _
    · exact .error rfl

theorem failsIn_dot_isMismatch (l r : Shape) : FailsIn (·.isMismatch) (dot l r) := by
  simp only [dot]
  split
  · exact .ok _
  · exact .ok _
  · exact .ite (.ok _) (.error rfl)

end Shape

namespace Value

/-- Shapes that fail for mismatches only do not end the program. -/
theorem failsIn_ofShape_abort {r : Except ShapeError Shape} (h : FailsIn (·.isMismatch) r) :
    FailsIn (HostError.Avoids ShapeError.isAbort) (ofShape r) := by
  refine failsIn_ofShape fun e he habort => ?_
  obtain rfl : e = .abort := by cases e <;> first | rfl | cases habort
  cases h _ he

/-- A binary operator does not end the program. -/
theorem failsIn_binary_abort (op : BinaryOp) (v w : Value) :
    FailsIn (HostError.Avoids ShapeError.isAbort) (v.binary op w) := by
  have hplain {x : Except HostError Value} (h : FailsIn (·.isPlain) x) :
      FailsIn (HostError.Avoids ShapeError.isAbort) x :=
    h.imp fun _ => HostError.avoids_of_isPlain
  unfold binary
  split
  · exact hplain (failsIn_choice v _)
  · exact hplain (failsIn_choice v _)
  · split
    · exact failsIn_ofShape_abort (Shape.failsIn_matmul_isMismatch _ _)
    · exact .error nofun
  · unfold plainBinary
    split
    · split
      · exact failsIn_ofShape_abort (Shape.failsIn_broadcast_isMismatch _ _)
      · exact .error nofun
    · split
      · exact hplain (failsIn_compare _ _ _ _)
      · exact hplain (failsIn_combine _ _ _)

end Value

/-! ### Calls -/

/-- Arguments that have to be tensors are those of the shapes that they are taken for. -/
theorem Argument.eq_map_of_tensors {function : String} {position : Nat} {vs : List Value}
    {ss : List Shape} (h : tensors function position vs = .ok ss) : vs = ss.map .tensor := by
  induction vs generalizing ss with
  | nil => cases h; rfl
  | cons v vs ih =>
    obtain ⟨s, hs, h⟩ := bind_eq_ok_iff.mp h
    obtain ⟨ss, hss, ⟨⟩⟩ := bind_eq_ok_iff.mp h
    cases v <;> cases hs
    rw [ih hss]
    rfl

namespace Builtin

variable {f : Builtin}

theorem failsIn_product_abort (f : Builtin) (v w : Value) :
    FailsIn (HostError.Avoids ShapeError.isAbort) (f.product v w) :=
  (Argument.failsIn_tensor v).bind fun a => (Argument.failsIn_tensor w).bind fun b =>
    Value.failsIn_ofShape_abort (.ite (Shape.failsIn_dot_isMismatch a b)
      (Shape.failsIn_matmul_isMismatch a b))

/-- Joining ends the program only if the sizes along an axis are too much for a word. -/
theorem exists_of_joined_eq_abort {parts : Value} {axis : Option Value}
    (h : f.joined parts axis = .error (.shape .abort)) :
    ∃ (ss : List Shape) (k : Nat), parts = .list (ss.map .tensor) ∧
      Word.count ≤ (ss.map (·.getD k 0)).sum := by
  have hconcat {vs : List Value} {ss : List Shape} {i : Int}
      (hss : Argument.tensors f.name 0 vs = .ok ss)
      (h : Value.ofShape (Shape.concat ss i) = .error (.shape .abort)) :
      ∃ (ss : List Shape) (k : Nat), Value.list vs = .list (ss.map .tensor) ∧
        Word.count ≤ (ss.map (·.getD k 0)).sum := by
    obtain ⟨_, ⟨⟩, h⟩ := Value.ofShape_eq_error h
    obtain ⟨-, -, k, -, -, hlarge⟩ := Shape.concatUnder_eq_abort h
    exact ⟨ss, k, congrArg _ (Argument.eq_map_of_tensors hss), hlarge⟩
  cases parts with
  | list vs =>
    cases axis with
    | none =>
      obtain h | ⟨ss, hss, h⟩ := bind_eq_error_iff.mp h
      · exact absurd h (Argument.failsIn_tensors vs).ne_abort
      · exact hconcat hss h
    | some v =>
      obtain h | ⟨ss, hss, h⟩ := bind_eq_error_iff.mp h
      · exact absurd h (Argument.failsIn_tensors vs).ne_abort
      · obtain h | ⟨i, -, h⟩ := bind_eq_error_iff.mp h
        · exact absurd h (Argument.failsIn_int v).ne_abort
        · exact hconcat hss h
  | _ => cases h

/-- Of all functions only one can end the program. -/
theorem failsIn_call_abort (hf : f ≠ .concat) (args : List Value) :
    FailsIn (HostError.Avoids ShapeError.isAbort) (f.call args) := by
  by_cases hproduct : f = .matmul ∨ f = .dot
  · match args with
    | [v, w] => rcases hproduct with rfl | rfl <;> exact failsIn_product_abort _ v w
    | [] | [_] | _ :: _ :: _ :: _ => rcases hproduct with rfl | rfl <;> exact .error nofun
  · rw [not_or] at hproduct
    exact f.failsIn_call ShapeError.ofPairs_isAbort hproduct.1 hproduct.2
      (fun hconcat => absurd hconcat hf) args

end Builtin

namespace Value

/-- A call that ends the program joins parts that are too large together. -/
theorem oversized_of_call {f : Value} {args : List Value}
    (h : f.call args = .error (.shape .abort)) : (Operation.call f args).Oversized := by
  cases f with
  | function g =>
    by_cases hg : g = .concat
    · subst hg
      match args with
      | [parts] =>
        obtain ⟨ss, k, rfl, hlarge⟩ := @Builtin.exists_of_joined_eq_abort _ _ Option.none h
        exact .parts hlarge
      | [parts, axis] =>
        obtain ⟨ss, k, rfl, hlarge⟩ := @Builtin.exists_of_joined_eq_abort _ _ (some axis) h
        exact .parts hlarge
      | [] | _ :: _ :: _ :: _ => cases h
    · exact absurd h (g.failsIn_call_abort hg args).ne_abort
  | method s m => exact absurd h (m.failsIn_call ShapeError.ofPairs_isAbort s args).ne_abort
  | _ => cases h

end Value

/-! ### Indexing -/

/-- An index of a tensor ends the program only at an axis that no word with a sign counts. -/
theorem Shape.exists_mem_of_index_eq_abort {s : Shape} {sels : List Selector}
    (h : s.index sels = .error .abort) : ∃ n ∈ s, Word.half ≤ n := by
  obtain ⟨-, ⟨⟩⟩ | ⟨-, -, ⟨⟩⟩ | ⟨hellipses, htaken, hrun⟩ := index_eq_error_iff.mp h
  obtain ⟨front, sel, back, n, r, -, hn, -, hsel⟩ :=
    (runSelectors_eq_error_iff hellipses htaken).mp hrun
  refine ⟨n, List.mem_of_getElem? hn, Nat.le_of_not_lt fun hlt => ?_⟩
  obtain ⟨_, -, -, ⟨⟩⟩ | ⟨_, -, -, ⟨⟩⟩ | ⟨_, _, _, -, ⟨⟩⟩ := applySelector_eq_error_cases hlt hsel

/-- A slice of a list ends the program only if no word with a sign counts the list. -/
theorem Slice.le_length_of_select_eq_abort {α : Type} {s : Slice} {xs : List α}
    (h : s.select xs = .error .abort) : Word.half ≤ xs.length := by
  refine Nat.le_of_not_lt fun hlt => ?_
  by_cases hstep : s.step = some 0
  · rw [select_of_step_eq_zero hstep] at h
    cases h
  · obtain ⟨ys, hys, -⟩ := exists_select hlt hstep
    cases hys.symm.trans h

namespace Value

theorem le_length_of_selectFromList {vs : List Value} {s : Selector}
    (h : selectFromList vs s = .error (.shape .abort)) : Word.half ≤ vs.length := by
  cases s with
  | slice s =>
    simp only [selectFromList] at h
    split at h
    · cases h
    · next e hselect =>
      cases h
      exact Slice.le_length_of_select_eq_abort hselect
  | int n =>
    have hplain : FailsIn (·.isPlain) (selectFromList vs (.int n)) := by
      refine .ite (.error rfl) ?_
      split
      · exact .ok _
      · exact .error rfl
    cases hplain _ h
  | full | ellipsis | newAxis | array => cases h

/-- An index that ends the program is of a tensor or a list that is too large. -/
theorem oversized_of_index {v : Value} {items : List (IndexValue Value)}
    (h : v.index items = .error (.shape .abort)) : (Operation.index v items).Oversized := by
  cases v with
  | tensor s =>
    obtain h | ⟨sels, -, h⟩ := bind_eq_error_iff.mp h
    · exact absurd h (IndexValue.failsIn_selectors items).ne_abort
    · obtain ⟨_, ⟨⟩, hindex⟩ := ofShape_eq_error h
      obtain ⟨n, hmem, hlarge⟩ := Shape.exists_mem_of_index_eq_abort hindex
      exact .tensor hmem hlarge
  | list vs =>
    match items with
    | [item] =>
      obtain h | ⟨s, -, h⟩ := bind_eq_error_iff.mp h
      · exact absurd h item.failsIn_selector.ne_abort
      · exact .list (le_length_of_selectFromList h)
    | [] | _ :: _ :: _ => cases h
  | _ => cases h

end Value

/-- **An operation that ends the program is oversized.** -/
theorem Operation.oversized_of_abort {o : Operation Value}
    (h : tensorHost o = .error (.shape .abort)) : o.Oversized := by
  cases o with
  | literal | list => cases h
  | unary op v => cases v.failsIn_unary op _ h
  | binary op v w => exact absurd h (Value.failsIn_binary_abort op v w).ne_abort
  | member v id => cases v.failsIn_member id _ h
  | call f args => exact Value.oversized_of_call h
  | index v items => exact Value.oversized_of_index h

/-- **An evaluation that ends the program** has come to an oversized operation. -/
theorem Node.exists_oversized_of_abort {env : Environment} {e : Node}
    (h : e.eval (tensorWorld env) = .error (.host (.shape .abort))) :
    ∃ m o, e.Evaluates m ∧ Performs (tensorWorld env) m o ∧ o.Oversized := by
  obtain ⟨m, o, hm, ho, hfail, -⟩ := exists_operation_of_eval_eq_host h
  exact ⟨m, o, hm, ho, Operation.oversized_of_abort hfail⟩

end ShapeFault
