import ShapeFault.Shape.Error

/-!
# Slices

A slice selects positions at equal distances from an axis. Its bounds may be absent or count from
the end; `Slice.resolve` turns them into a walk from a first position in steps up to, and not
including, a limit. An axis is only counted, `Slice.count`. A list is gone through, `Slice.select`:
as many positions from the place where the slice starts, each of them computed in a word.

Sizes from `Word.half` on are taken for numbers below zero. There is no range to move a bound into
then, and a walk without bounds has no positions.
-/

namespace ShapeFault

/-- The bounds and the step of a slice, as written. -/
structure Slice where
  start : Option Int
  stop : Option Int
  step : Option Int
  deriving DecidableEq, Repr

/-- A walk over positions: from `first` on in steps of `step`, which is not zero, before `limit`. -/
structure Walk where
  first : Int
  limit : Int
  step : Int
  deriving DecidableEq, Repr

namespace Walk

/-- The number of positions of a walk. -/
def count (w : Walk) : Nat :=
  let distance := if 0 < w.step then w.limit - w.first else w.first - w.limit
  if distance ≤ 0 then 0 else (distance.toNat - 1) / w.step.natAbs + 1

end Walk

namespace Slice

/-- A bound counted from the front and moved into the range from `low` to `high`. An empty range
ends the program. -/
def clamp (size low high bound : Int) : Except ShapeError Int := do
  let place ← ShapeError.orAbort (Word.fromFront? size bound)
  if low ≤ high then .ok (max low (min high place)) else .error .abort

/-- A bound that is moved into a range, or the place `absent` where there is none. -/
def clampOr (size low high absent : Int) : Option Int → Except ShapeError Int
  | some bound => clamp size low high bound
  | none => .ok absent

/-- The walk of a slice over an axis. A walk to the right stays between 0 and `size`, one to the
left between -1 and `size - 1`; an absent bound stands for the end that the walk starts from or goes
to. The size is taken as a word with a sign. -/
def resolve (s : Slice) (size : Nat) : Except ShapeError Walk :=
  let step := s.step.getD 1
  let size := Word.asSigned size
  if step = 0 then .error .zeroStep
  else if 0 < step then do
    let first ← clampOr size 0 size 0 s.start
    let limit ← clampOr size 0 size size s.stop
    .ok ⟨first, limit, step⟩
  else do
    let last ← ShapeError.orAbort (Word.checked? (size - 1))
    let first ← clampOr size (-1) last last s.start
    let limit ← clampOr size (-1) last (-1) s.stop
    .ok ⟨first, limit, step⟩

/-- The number of positions that a slice selects from an axis. -/
def count (s : Slice) (size : Nat) : Except ShapeError Nat := do
  let w ← s.resolve size
  .ok w.count

/-- The position that a slice of a list starts from. -/
def origin (s : Slice) (size : Nat) (step : Int) : Int :=
  match s.start with
  | some bound =>
    if bound < 0 then max (bound + size) (if 0 < step then 0 else -1)
    else min bound (if 0 < step then size else size - 1)
  | none => if 0 < step then 0 else size - 1

/-- The position `n` steps behind `first`, computed in words. -/
def position? (first step : Int) (n : Nat) : Option Int := do
  let offset ← Word.checked? (n * step)
  Word.checked? (first + offset)

/-- The member of a list at a position, which may be outside of the list. -/
def member? {α : Type} (xs : List α) (position : Int) : Option α :=
  if position < 0 then none else xs[position.toNat]?

/-- The members of a list that a slice selects: those at its positions, up to the first position
that no word holds. -/
def select {α : Type} (s : Slice) (xs : List α) : Except ShapeError (List α) := do
  let n ← s.count xs.length
  let step := s.step.getD 1
  let positions := (List.range n).map (position? (s.origin xs.length step) step)
  .ok ((positions.takeWhile Option.isSome).filterMap fun p => p.bind (member? xs))

end Slice

end ShapeFault
