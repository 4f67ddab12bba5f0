import ShapeFault.Tensor.Host

/-!
# Where the errors about two shapes come from

Three errors about shapes are about two operands that are combined: they cannot be broadcast, their
inner sizes differ, or they are not aligned. Of all functions and methods only the products of two
tensors fail with one of them (`Builtin.failsIn_call`, `Method.failsIn_call`), and an index can fail
with the first of them only (`Value.failsIn_index`). The same functions and methods do not end the
program, but for the one that joins parts, so these statements are for both kinds of errors at once
(`ShapeError.OfPairs`). Members and the operators on values that are no tensors fail for no shape at
all (`HostError.isPlain`).

`FailsIn P x` says that every failure of `x` satisfies `P`. It is kept by going on with a value, so
each function is gone through once, along its definition.
-/

namespace ShapeFault

/-! ### Failures of computations -/

variable {E α β : Type}

/-- Every failure of `x` satisfies `P`. -/
def FailsIn (P : E → Prop) (x : Except E α) : Prop :=
  ∀ c, x = .error c → P c

namespace FailsIn

variable {P : E → Prop}

theorem ok (a : α) : FailsIn P (.ok a : Except E α) :=
  nofun

theorem error {c : E} (h : P c) : FailsIn P (.error c : Except E α) := by
  rintro _ ⟨⟩
  exact h

theorem bind {x : Except E α} {f : α → Except E β} (hx : FailsIn P x)
    (hf : ∀ a, FailsIn P (f a)) : FailsIn P (x >>= f) := by
  intro c h
  cases x with
  | error e => exact hx c (congrArg Except.error (Except.error.inj h))
  | ok a => exact hf a c h

theorem imp {Q : E → Prop} {x : Except E α} (hx : FailsIn P x) (h : ∀ c, P c → Q c) :
    FailsIn Q x :=
  fun c hc => h c (hx c hc)

theorem ite {p : Prop} [Decidable p] {x y : Except E α} (hx : FailsIn P x) (hy : FailsIn P y) :
    FailsIn P (if p then x else y) := by
  split
  · exact hx
  · exact hy

theorem map {x : Except E α} {f : α → β} (hx : FailsIn P x) : FailsIn P (x.map f) := by
  intro c h
  cases x with
  | error e => exact hx c (congrArg Except.error (Except.error.inj h))
  | ok a => cases h

end FailsIn

namespace ShapeError

/-- Whether the error is about two factors. -/
def isProduct : ShapeError → Bool
  | innerSizes _ _ | notAligned .. => true
  | _ => false

/-- Whether the error is about two shapes that are combined. -/
def isPair : ShapeError → Bool
  | notBroadcastable _ _ | innerSizes _ _ | notAligned .. => true
  | _ => false

theorem isPair_of_isProduct {e : ShapeError} (h : e.isProduct) : e.isPair := by
  cases e <;> first | rfl | cases h

/-- Whether the error is the end of the program. -/
def isAbort : ShapeError → Bool
  | abort => true
  | _ => false

/-- The kind has no errors about an axis, a part or a request: only errors about two shapes that are
combined, and the end of the program. -/
def OfPairs (k : ShapeError → Bool) : Prop :=
  ∀ e, (e.isPair || e.isAbort) = false → k e = false

theorem ofPairs_isPair : OfPairs isPair :=
  fun _ h => (Bool.or_eq_false_iff.mp h).1

theorem ofPairs_isAbort : OfPairs isAbort :=
  fun _ h => (Bool.or_eq_false_iff.mp h).2

theorem OfPairs.avoids {k : ShapeError → Bool} (hk : OfPairs k) {e : ShapeError}
    (h : (e.isPair || e.isAbort) = false) : ¬k e :=
  Bool.eq_false_iff.mp (hk e h)

theorem failsIn_orAbort {P : ShapeError → Prop} (h : P abort) {x : Option α} :
    FailsIn P (orAbort x) := by
  cases x with
  | none => exact .error h
  | some a => exact .ok a

end ShapeError

/-- The failure is no error about shapes of this kind. -/
def HostError.Avoids (k : ShapeError → Bool) (c : HostError) : Prop :=
  ∀ e, c = .shape e → ¬k e

theorem Value.ofShape_eq_error {x : Except ShapeError Shape} {c : HostError}
    (h : Value.ofShape x = .error c) : ∃ e, c = .shape e ∧ x = .error e := by
  cases x with
  | ok s => cases h
  | error e => exact ⟨e, (Except.error.inj h).symm, rfl⟩

theorem Value.failsIn_ofShape {k : ShapeError → Bool} {r : Except ShapeError Shape}
    (h : FailsIn (¬k ·) r) : FailsIn (HostError.Avoids k) (Value.ofShape r) := by
  cases r with
  | ok s => exact .ok _
  | error e => exact .error fun _ he => HostError.shape.inj he ▸ h e rfl

/-! ### Operators and members -/

namespace HostError

/-- Whether the failure has nothing to do with shapes. -/
def isPlain : HostError → Bool
  | shape _ | inhomogeneous _ => false
  | _ => true

variable {c : HostError}

theorem not_isShapeClass_of_isPlain (h : c.isPlain) : ¬c.isShapeClass := by
  cases c <;> first | exact Bool.false_ne_true | cases h

theorem avoids_of_isPlain {k : ShapeError → Bool} (h : c.isPlain) : c.Avoids k := by
  rintro e rfl
  cases h

end HostError

namespace Value

theorem failsIn_truth (v : Value) : FailsIn (·.isPlain) v.truth := by
  cases v with
  | tensor s => exact .ite (.ok _) (.error rfl)
  | _ => exact .ok _

/-- A choice by the truth of a value fails only if that has none. -/
theorem failsIn_choice (v : Value) (f : Bool → Value) :
    FailsIn (·.isPlain) (v.truth >>= fun b => .ok (f b)) :=
  v.failsIn_truth.bind fun _ => .ok _

/-- Unary operators do not fail for shapes. -/
theorem failsIn_unary (op : UnaryOp) (v : Value) : FailsIn (·.isPlain) (v.unary op) := by
  cases op with
  | not => exact v.failsIn_truth.bind fun _ => .ok _
  | neg => cases v <;> first | exact .ok _ | exact .error rfl

theorem failsIn_compare (op : BinaryOp) (c : Comparison) (v w : Value) :
    FailsIn (·.isPlain) (compare op c v w) := by
  unfold compare
  split
  · exact .ok _
  · cases c <;> first | exact .ok _ | exact .error rfl

theorem failsIn_combine (op : BinaryOp) (v w : Value) :
    FailsIn (·.isPlain) (combine op v w) := by
  unfold combine
  split
  · exact .ok _
  · exact .ok _
  · split
    · refine .ite (.error rfl) ?_
      split <;> exact .ok _
    · exact .error rfl

theorem failsIn_member (v : Value) (id : String) : FailsIn (·.isPlain) (v.member id) := by
  unfold member
  simp only
  split
  · exact .ok _
  · exact .error rfl

end Value

/-! ### Arguments -/

namespace Argument

variable {k : ShapeError → Bool} {function : String} {position : Nat}

theorem failsIn_int (v : Value) : FailsIn (HostError.Avoids k) (int function position v) := by
  cases v <;> first | exact .ok _ | exact .error nofun

theorem failsIn_tensor (v : Value) :
    FailsIn (HostError.Avoids k) (tensor function position v) := by
  cases v <;> first | exact .ok _ | exact .error nofun

theorem failsIn_ints (vs : List Value) :
    FailsIn (HostError.Avoids k) (ints function position vs) := by
  induction vs generalizing position with
  | nil => exact .ok _
  | cons v vs ih => exact (failsIn_int v).bind fun _ => ih.bind fun _ => .ok _

theorem failsIn_sizes (vs : List Value) : FailsIn (HostError.Avoids k) (sizes function vs) := by
  unfold sizes
  split <;> exact failsIn_ints _

theorem failsIn_naturals (ns : List Int) :
    FailsIn (HostError.Avoids k) (naturals function position ns) := by
  induction ns generalizing position with
  | nil => exact .ok _
  | cons n ns ih =>
    rw [naturals]
    exact .ite (.error nofun) (ih.bind fun _ => .ok _)

theorem failsIn_tensors (vs : List Value) :
    FailsIn (HostError.Avoids k) (tensors function position vs) := by
  induction vs with
  | nil => exact .ok _
  | cons v vs ih => exact (failsIn_tensor v).bind fun _ => ih.bind fun _ => .ok _

end Argument

namespace Value

mutual

theorem failsIn_nestedShape {k : ShapeError → Bool} (depth : Nat) :
    (v : Value) → FailsIn (HostError.Avoids k) (nestedShape depth v)
  | .tensor _ | .int _ | .float _ | .bool _ => by
    rw [nestedShape]
    exact .ok _
  | .list vs => by
    rw [nestedShape]
    exact (failsIn_memberShape (depth + 1) Option.none vs).bind fun _ => .ok _
  | .str _ | .none | .library _ | .object _ | .function _ | .method _ _ => by
    rw [nestedShape]
    exact .error nofun

theorem failsIn_memberShape {k : ShapeError → Bool} (depth : Nat) (expected : Option Shape) :
    (vs : List Value) → FailsIn (HostError.Avoids k) (memberShape depth expected vs)
  | [] => by
    rw [memberShape]
    exact .ok _
  | v :: vs => by
    rw [memberShape]
    refine (failsIn_nestedShape depth v).bind fun s => ?_
    cases expected with
    | none => exact failsIn_memberShape depth (some s) vs
    | some e =>
      exact .ite (failsIn_memberShape depth (some e) vs) (.error nofun)

end

theorem failsIn_arrayShape {k : ShapeError → Bool} (v : Value) :
    FailsIn (HostError.Avoids k) v.arrayShape :=
  failsIn_nestedShape 0 v

end Value

/-! ### Axes, parts and requests -/

namespace Shape

variable {k : ShapeError → Bool} (hk : ShapeError.OfPairs k)

include hk

theorem failsIn_normalizeAxis (axis : Int) (rank : Nat) :
    FailsIn (¬k ·) (normalizeAxis axis rank) := by
  unfold normalizeAxis
  exact .ite (.ok _) (.error (hk.avoids rfl))

theorem failsIn_swapAxes (s : Shape) (i j : Int) :
    FailsIn (¬k ·) (s.swapAxes i j) :=
  (failsIn_normalizeAxis hk i s.rank).bind fun _ =>
    (failsIn_normalizeAxis hk j s.rank).bind fun _ => .ok _

theorem failsIn_reduce (s : Shape) (axis : Option Int) :
    FailsIn (¬k ·) (s.reduce axis) := by
  cases axis with
  | none => exact .ok _
  | some i => exact (failsIn_normalizeAxis hk i s.rank).bind fun _ => .ok _

/-- Sums of sizes can end the program. -/
theorem failsIn_joinParts (habort : ¬k .abort) {c : Word.Overflow} {axis : Nat} {first : Shape}
    {position size : Nat} (ss : List Shape) :
    FailsIn (¬k ·) (joinParts c axis first position size ss) := by
  induction ss generalizing position size with
  | nil => exact .ok _
  | cons s ss ih =>
    refine FailsIn.bind ?_ fun _ => (ShapeError.failsIn_orAbort habort).bind fun _ => ih
    refine .ite (.error (hk.avoids rfl)) ?_
    split
    · exact .error (hk.avoids rfl)
    · exact .ok _

theorem failsIn_concat (habort : ¬k .abort) (ss : List Shape) (axis : Int) :
    FailsIn (¬k ·) (concat ss axis) := by
  cases ss with
  | nil => exact .error (hk.avoids rfl)
  | cons s ss =>
    exact (failsIn_normalizeAxis hk axis s.rank).bind fun _ =>
      (failsIn_joinParts hk habort ss).bind fun _ => .ok _

theorem failsIn_reshape (s : Shape) (requested : List Int) :
    FailsIn (¬k ·) (s.reshape requested) := by
  refine .ite (.error (hk.avoids rfl)) (.ite (.error (hk.avoids rfl)) ?_)
  split
  · exact .ite (.ite (.error (hk.avoids rfl)) (.ok _))
      (.ite (.ok _) (.error (hk.avoids rfl)))
  · exact .error (hk.avoids rfl)

end Shape

/-! ### Calls -/

namespace Builtin

variable {k : ShapeError → Bool} (f : Builtin)

theorem failsIn_elementwise (v : Value) : FailsIn (HostError.Avoids k) (f.elementwise v) := by
  cases v <;> first | exact .ok _ | exact .error nofun

theorem failsIn_filled (args : List Value) : FailsIn (HostError.Avoids k) (f.filled args) :=
  (Argument.failsIn_sizes args).bind fun ns => (Argument.failsIn_naturals ns).bind fun _ => .ok _

section

variable (hk : ShapeError.OfPairs k)

include hk

theorem failsIn_joined (habort : ¬k .abort) (parts : Value) (axis : Option Value) :
    FailsIn (HostError.Avoids k) (f.joined parts axis) := by
  cases parts with
  | list vs =>
    cases axis with
    | none =>
      exact (Argument.failsIn_tensors vs).bind fun shapes =>
        Value.failsIn_ofShape (Shape.failsIn_concat hk habort shapes 0)
    | some v =>
      exact (Argument.failsIn_tensors vs).bind fun shapes => (Argument.failsIn_int v).bind fun n =>
        Value.failsIn_ofShape (Shape.failsIn_concat hk habort shapes n)
  | _ => exact .error nofun

/-- **Functions other than the products** do not fail for two shapes, and only one of them can end
the program. -/
theorem failsIn_call (hmatmul : f ≠ .matmul) (hdot : f ≠ .dot)
    (hconcat : f = .concat → ¬k .abort) (args : List Value) :
    FailsIn (HostError.Avoids k) (f.call args) := by
  cases f with
  | tanh | exp | relu | sigmoid =>
    match args with
    | [v] => exact failsIn_elementwise _ v
    | [] | _ :: _ :: _ => exact .error nofun
  | matmul => exact absurd rfl hmatmul
  | dot => exact absurd rfl hdot
  | transpose =>
    match args with
    | [v] => exact (Argument.failsIn_tensor v).bind fun _ => .ok _
    | [v, first, second] =>
      exact (Argument.failsIn_tensor v).bind fun s => (Argument.failsIn_int first).bind fun i =>
        (Argument.failsIn_int second).bind fun j =>
          Value.failsIn_ofShape (Shape.failsIn_swapAxes hk s i j)
    | [] | [_, _] | _ :: _ :: _ :: _ :: _ => exact .error nofun
  | zeros | ones =>
    match args with
    | [] => exact .error nofun
    | v :: vs => exact failsIn_filled _ (v :: vs)
  | concat =>
    match args with
    | [parts] => exact failsIn_joined _ hk (hconcat rfl) parts none
    | [parts, axis] => exact failsIn_joined _ hk (hconcat rfl) parts (some axis)
    | [] | _ :: _ :: _ :: _ => exact .error nofun
  | array =>
    match args with
    | [v] => exact (Value.failsIn_arrayShape v).bind fun _ => .ok _
    | [] | _ :: _ :: _ => exact .error nofun

end

end Builtin

/-- **Methods** do not fail for two shapes, nor do they end the program. -/
theorem Method.failsIn_call {k : ShapeError → Bool} (hk : ShapeError.OfPairs k) (m : Method)
    (s : Shape) (args : List Value) :
    FailsIn (HostError.Avoids k) (m.call s args) := by
  cases m with
  | reshape =>
    match args with
    | [] => exact .error nofun
    | v :: vs =>
      exact (Argument.failsIn_sizes (v :: vs)).bind fun requested =>
        Value.failsIn_ofShape (Shape.failsIn_reshape hk s requested)
  | transpose =>
    match args with
    | [] => exact .ok _
    | [first, second] =>
      exact (Argument.failsIn_int first).bind fun i => (Argument.failsIn_int second).bind fun j =>
        Value.failsIn_ofShape (Shape.failsIn_swapAxes hk s i j)
    | [_] | _ :: _ :: _ :: _ => exact .error nofun
  | sum =>
    match args with
    | [] => exact Value.failsIn_ofShape (Shape.failsIn_reduce hk s none)
    | [axis] =>
      exact (Argument.failsIn_int axis).bind fun i =>
        Value.failsIn_ofShape (Shape.failsIn_reduce hk s (some i))
    | _ :: _ :: _ => exact .error nofun

/-! ### Indexing -/

namespace Slice

theorem failsIn_clampOr (size low high absent : Int) (bound : Option Int) :
    FailsIn (¬·.isProduct) (clampOr size low high absent bound) := by
  cases bound with
  | none => exact .ok _
  | some b =>
    exact (ShapeError.failsIn_orAbort Bool.false_ne_true).bind fun _ =>
      .ite (.ok _) (.error Bool.false_ne_true)

theorem failsIn_count (s : Slice) (size : Nat) : FailsIn (¬·.isProduct) (s.count size) := by
  have hright : FailsIn (¬·.isProduct) (do
      let first ← clampOr (Word.asSigned size) 0 (Word.asSigned size) 0 s.start
      let limit ← clampOr (Word.asSigned size) 0 (Word.asSigned size) (Word.asSigned size) s.stop
      .ok (Walk.mk first limit (s.step.getD 1))) :=
    (failsIn_clampOr _ _ _ _ _).bind fun _ => (failsIn_clampOr _ _ _ _ _).bind fun _ => .ok _
  have hleft (last : Int) : FailsIn (¬·.isProduct) (do
      let first ← clampOr (Word.asSigned size) (-1) last last s.start
      let limit ← clampOr (Word.asSigned size) (-1) last (-1) s.stop
      .ok (Walk.mk first limit (s.step.getD 1))) :=
    (failsIn_clampOr _ _ _ _ _).bind fun _ => (failsIn_clampOr _ _ _ _ _).bind fun _ => .ok _
  have hresolve : FailsIn (¬·.isProduct) (s.resolve size) :=
    .ite (.error Bool.false_ne_true)
      (.ite hright ((ShapeError.failsIn_orAbort Bool.false_ne_true).bind hleft))
  exact hresolve.bind fun _ => .ok _

theorem failsIn_select (s : Slice) (vs : List Value) :
    FailsIn (¬·.isProduct) (s.select vs) :=
  (s.failsIn_count vs.length).bind fun _ => .ok _

end Slice

namespace Shape

theorem failsIn_broadcast (l r : Shape) : FailsIn (¬·.isProduct) (broadcast l r) := by
  unfold broadcast
  split
  · exact .ok _
  · exact .error Bool.false_ne_true

theorem failsIn_applySelector (r : Selection) (axis size : Nat) (s : Selector) :
    FailsIn (¬·.isProduct) (applySelector r axis size s) := by
  cases s with
  | int i =>
    exact (ShapeError.failsIn_orAbort Bool.false_ne_true).bind fun _ =>
      .ite (.ok _) (.error Bool.false_ne_true)
  | slice s => exact (s.failsIn_count size).bind fun _ => .ok _
  | full | newAxis | ellipsis => exact .ok _
  | array s =>
    match r with
    | ⟨_, none⟩ => exact .ok _
    | ⟨_, some (_, joint)⟩ => exact (failsIn_broadcast joint s).bind fun _ => .ok _

theorem failsIn_applySelectors (r : Selection) (axis : Nat) (ss : List Selector) (sizes : Shape) :
    FailsIn (¬·.isProduct) (applySelectors r axis ss sizes) := by
  fun_induction applySelectors r axis ss sizes with
  | case1 => exact .ok _
  | case2 r axis ss sizes ih => exact ih
  | case3 r axis s ss n sizes hs ih => exact (failsIn_applySelector r axis n s).bind ih
  | case4 r axis s ss hs ih => exact (failsIn_applySelector r axis 1 s).bind ih

theorem failsIn_index (s : Shape) (selectors : List Selector) :
    FailsIn (¬·.isProduct) (s.index selectors) :=
  .ite (.error Bool.false_ne_true) (.ite (.error Bool.false_ne_true)
    ((failsIn_applySelectors _ _ _ _).bind fun _ => .ok _))

end Shape

namespace IndexValue

variable {k : ShapeError → Bool}

theorem failsIn_bound {position : Nat} (v : Option Value) :
    FailsIn (HostError.Avoids k) (bound position v) := by
  unfold bound
  split
  · exact .ok _
  · exact .ok _
  · exact (Argument.failsIn_int _).map

theorem failsIn_selector (i : IndexValue Value) : FailsIn (HostError.Avoids k) i.selector := by
  cases i with
  | value v =>
    cases v with
    | int | bool | none | tensor => exact .ok _
    | list vs => exact (Value.failsIn_arrayShape (.list vs)).bind fun _ => .ok _
    | _ => exact .error nofun
  | slice start stop step =>
    have hslice : FailsIn (HostError.Avoids k) (sliceOf start stop step) :=
      (failsIn_bound start).bind fun _ => (failsIn_bound stop).bind fun _ =>
        (failsIn_bound step).bind fun _ => .ok _
    exact hslice.bind fun _ => .ok _
  | full | ellipsis => exact .ok _

theorem failsIn_selectors (is : List (IndexValue Value)) :
    FailsIn (HostError.Avoids k) (selectors is) := by
  induction is with
  | nil => exact .ok _
  | cons i is ih => exact (failsIn_selector i).bind fun _ => ih.bind fun _ => .ok _

end IndexValue

namespace Value

theorem failsIn_selectFromList (vs : List Value) (s : Selector) :
    FailsIn (HostError.Avoids ShapeError.isProduct) (selectFromList vs s) := by
  cases s with
  | int n =>
    refine .ite (.error nofun) ?_
    split
    · exact .ok _
    · exact .error nofun
  | full => exact .ok _
  | slice s =>
    simp only [selectFromList]
    cases hselect : s.select vs with
    | ok ws => exact .ok _
    | error e => exact .error fun _ h => HostError.shape.inj h ▸ s.failsIn_select vs e hselect
  | ellipsis | newAxis | array => exact .error nofun

/-- **Indexing** does not fail for two factors. -/
theorem failsIn_index (v : Value) (items : List (IndexValue Value)) :
    FailsIn (HostError.Avoids ShapeError.isProduct) (v.index items) := by
  cases v with
  | tensor s =>
    exact (IndexValue.failsIn_selectors items).bind fun selectors =>
      failsIn_ofShape (s.failsIn_index selectors)
  | list vs =>
    match items with
    | [item] => exact (IndexValue.failsIn_selector item).bind fun s => failsIn_selectFromList vs s
    | [] | _ :: _ :: _ => exact .error nofun
  | _ => exact .error nofun

end Value

end ShapeFault
