import ShapeFault.Shape.Axis

/-!
# Concatenation

Shapes are joined along one axis, where their sizes add up. All other sizes have to agree with those
of the first shape; the first part that does not fit is reported, with the first axis on which it
does not.

The sizes are added up part by part, so a sum that leaves its word ends the program before the parts
behind are looked at, or wraps around if the program does not check its sums.
-/

namespace ShapeFault.Shape

/-- The first axis other than `axis` on which two shapes differ, with the two sizes. -/
def differsOff? (axis : Nat) (first s : Shape) : Option ((Nat × Nat) × Nat) :=
  (first.zip s).zipIdx.find? fun p => p.2 ≠ axis && p.1.1 ≠ p.1.2

/-- Whether the part `s` at `position` can follow the part `first`. -/
def checkPart (axis : Nat) (first : Shape) (position : Nat) (s : Shape) : Except ShapeError Unit :=
  if s.rank ≠ first.rank then .error (.partRank position first.rank s.rank)
  else
    match differsOff? axis first s with
    | some ((expected, found), dim) => .error (.partSize dim position expected found)
    | none => .ok ()

/-- The size along `axis` of the part `first` and the parts that follow it, of which the next one is
at `position`; `size` is that of the parts so far. Each part is checked before its size is added. -/
def joinParts (c : Word.Overflow) (axis : Nat) (first : Shape) :
    (position size : Nat) → List Shape → Except ShapeError Nat
  | _, size, [] => .ok size
  | position, size, s :: ss => do
    checkPart axis first position s
    let size ← ShapeError.orAbort (Word.sum? c size (s.getD axis 0))
    joinParts c axis first (position + 1) size ss

/-- The shape of the parts `shapes` joined along `axis`, in a program in which `c` becomes of a sum
that leaves its word. -/
def concatUnder (c : Word.Overflow) (shapes : List Shape) (axis : Int) : Except ShapeError Shape :=
  match shapes with
  | [] => .error .noParts
  | first :: rest => do
    let k ← normalizeAxis axis first.rank
    let size ← joinParts c k first 1 (first.getD k 0) rest
    .ok (first.set k size)

/-- The shape of joined parts, where sums are checked. -/
def concat (shapes : List Shape) (axis : Int) : Except ShapeError Shape :=
  concatUnder .abort shapes axis

end ShapeFault.Shape
