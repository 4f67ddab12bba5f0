import ShapeFault.Decimal.Basic

/-!
# The shortest decimal that reads back

A binary64 value stands for all the reals that round to it. `shortest` selects the decimal with the
fewest digits among them: for 1, 2, … digits it tries the two neighbours of the value on the grid of
decimals with so many digits, and the first grid with a neighbour that reads back wins. Of two such
neighbours it takes the nearer one, and the larger one if they are equally near.
-/

namespace ShapeFault.Decimal

/-- The positive number `significand * 2 ^ exponent`. -/
structure Binary where
  significand : Nat
  exponent : Int
  deriving DecidableEq, Repr

namespace Binary

/-- The number of binary64 values of one sign and scale, `2 ^ 52`. -/
def fractionCount : Nat :=
  4503599627370496

/-- The absolute value of a finite binary64 value. -/
def ofFloat (x : Float) : Binary :=
  let bits := x.toBits.toNat
  let fraction := bits % fractionCount
  let scale : Nat := bits / fractionCount % 2048
  if scale = 0 then ⟨fraction, -1074⟩ else ⟨fractionCount + fraction, (scale : Int) - 1075⟩

/-- The number divided by `10 ^ place`, as a fraction of natural numbers. -/
def scaled (b : Binary) (place : Int) : Nat × Nat :=
  (b.significand * Nat.pow 2 b.exponent.toNat * Nat.pow 10 (-place).toNat,
   Nat.pow 2 (-b.exponent).toNat * Nat.pow 10 place.toNat)

/-- The number divided by `10 ^ place`, rounded down. -/
def floorAt (b : Binary) (place : Int) : Nat :=
  (b.scaled place).1 / (b.scaled place).2

/-- The place of the leading digit: `10 ^ b.leadingPlace` is the largest power of ten that is not
above the number. No positive binary64 value is below `10 ^ (-350)`. -/
def leadingPlace (b : Binary) : Int :=
  (digitChars (b.floorAt (-350))).length - 351

/-- Whether the number is at least half-way from `lower` to `lower + 1` on the grid of multiples of
`10 ^ place`. -/
def isUpperHalf (b : Binary) (lower : Nat) (place : Int) : Bool :=
  (2 * lower + 1) * (b.scaled place).2 ≤ 2 * (b.scaled place).1

/-- The decimal that equals the number. -/
def exactDecimal (b : Binary) : Decimal :=
  ⟨b.significand * Nat.pow 2 b.exponent.toNat * Nat.pow 5 (-b.exponent).toNat, min b.exponent 0⟩

end Binary

/-- Whether a decimal rounds to the absolute value of `x`. -/
def readsBack (x : Float) (d : Decimal) : Bool :=
  d.toFloat == x.abs

/-- The neighbour of `x` on the grid of multiples of `10 ^ place` that reads back, if one does. -/
def onGrid? (x : Float) (place : Int) : Option Decimal :=
  let b := Binary.ofFloat x
  let lower : Decimal := ⟨b.floorAt place, place⟩
  let upper : Decimal := ⟨b.floorAt place + 1, place⟩
  match readsBack x lower, readsBack x upper with
  | true, true => some (if b.isUpperHalf lower.digits place then upper else lower)
  | true, false => some lower
  | false, true => some upper
  | false, false => none

/-- The decimal with the fewest digits that rounds to the absolute value of `x`, which is finite and
not zero. Seventeen digits always suffice; failing that, the exact value. -/
def shortest (x : Float) : Decimal :=
  let b := Binary.ofFloat x
  ((List.range 17).findSome? fun n : Nat => onGrid? x (b.leadingPlace - n)).getD b.exactDecimal

end ShapeFault.Decimal
