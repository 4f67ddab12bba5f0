import ShapeFault.Shape.Broadcast
import ShapeFault.Shape.Slice

/-!
# Indexing

The shape of a tensor that is indexed by a list of selectors. An ellipsis stands for as many full
selectors as there are axes without a selector; axes behind the last selector are kept. The shapes
of all array selectors are broadcast together, and the result stands where the first of them is.
-/

namespace ShapeFault

/-- What an index does with one axis. -/
inductive Selector where
  /-- takes one position, and the axis away -/
  | int (position : Int)
  | slice (slice : Slice)
  /-- keeps the axis -/
  | full
  | ellipsis
  /-- inserts an axis of size one, and uses none -/
  | newAxis
  /-- takes the positions that an array of this shape holds -/
  | array (shape : Shape)
  deriving DecidableEq, Repr

namespace Selector

/-- Whether the selector uses up an axis of its own. -/
def takesAxis : Selector → Bool
  | ellipsis | newAxis => false
  | _ => true

/-- Selectors with `fill` full ones in place of an ellipsis. -/
def expand (fill : Nat) (selectors : List Selector) : List Selector :=
  selectors.flatMap fun
    | ellipsis => List.replicate fill full
    | s => [s]

end Selector

namespace Shape

/-- The sizes of a result so far, and the joint shape of its arrays with the place it belongs to. -/
structure Selection where
  sizes : Shape
  arrays : Option (Nat × Shape)
  deriving DecidableEq, Repr

namespace Selection

/-- The selection with one more axis. -/
def push (r : Selection) (size : Nat) : Selection :=
  ⟨r.sizes ++ [size], r.arrays⟩

/-- The shape of the result: the joint shape of the arrays put into its place. -/
def shape (r : Selection) : Shape :=
  match r.arrays with
  | none => r.sizes
  | some (place, joint) => r.sizes.take place ++ joint ++ r.sizes.drop place

/-- The selection with one more array. -/
def join (r : Selection) (s : Shape) : Except ShapeError Selection :=
  match r.arrays with
  | none => .ok ⟨r.sizes, some (r.sizes.length, s)⟩
  | some (place, joint) => do
    let joint ← broadcast joint s
    .ok ⟨r.sizes, some (place, joint)⟩

end Selection

/-- Applies one selector to an axis, given by its number and its size. -/
def applySelector (r : Selection) (axis size : Nat) : Selector → Except ShapeError Selection
  | .int index => do
    let position ← ShapeError.orAbort (Word.fromFront? (Word.asSigned size) index)
    if 0 ≤ position ∧ position < Word.asSigned size then .ok r
    else .error (.indexOutOfBounds index axis size)
  | .slice s => do
    let n ← s.count size
    .ok (r.push n)
  | .full => .ok (r.push size)
  | .array s => r.join s
  | .newAxis | .ellipsis => .ok r

/-- Applies selectors to the axes from number `axis` on, of which `sizes` are the sizes. -/
def applySelectors (r : Selection) (axis : Nat) :
    List Selector → (sizes : Shape) → Except ShapeError Selection
  | [], sizes => .ok ⟨r.sizes ++ sizes, r.arrays⟩
  | .newAxis :: ss, sizes => applySelectors (r.push 1) axis ss sizes
  | s :: ss, n :: sizes => do
    let r ← applySelector r axis n s
    applySelectors r (axis + 1) ss sizes
  | s :: ss, [] => do
    let r ← applySelector r axis 1 s
    applySelectors r axis ss []

/-- The shape of a tensor of shape `s` behind an index. -/
def index (s : Shape) (selectors : List Selector) : Except ShapeError Shape :=
  let taken := selectors.countP Selector.takesAxis
  if 1 < selectors.count .ellipsis then .error .manyEllipses
  else if s.rank < taken then .error (.tooManyIndices s.rank taken)
  else do
    let r ← applySelectors ⟨[], none⟩ 0 (Selector.expand (s.rank - taken) selectors) s
    .ok r.shape

end Shape

end ShapeFault
