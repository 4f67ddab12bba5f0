import ShapeFault.Decimal.Shortest
import ShapeFault.Word

/-!
# Writing binary64 values

The decimals that `shortest` selects, laid out as text. `Layout` holds the decisions, and
`Layout.values` is the one in use: a value from `10 ^ (-4)` up to and not including `10 ^ 16` is
written with a point and at least one digit on each side of it, any other with an exponent after `e`
that has neither plus nor padding.
-/

namespace ShapeFault.Decimal

/-- How a binary64 value is laid out. -/
structure Layout where
  /-- the places of the leading digit that are written without an exponent start here … -/
  plainFrom : Int
  /-- … and end before this one -/
  plainBelow : Int
  notANumber : String
  infinity : String

/-- The layout of the numbers in this library's texts. -/
def Layout.values : Layout :=
  ⟨-4, 16, "NaN", "inf"⟩

/-- Digits without the zeros at their end. -/
def dropFinalZeros (ds : List Char) : List Char :=
  (ds.reverse.dropWhile (· == '0')).reverse

/-- Digits, the first of which stands at `place`, with a point and at least one digit on each side
of it. -/
def plain (place : Int) (ds : List Char) : List Char :=
  if place < 0 then
    '0' :: '.' :: (List.replicate (place.natAbs - 1) '0' ++ ds)
  else
    let whole := place.toNat + 1
    let fraction := ds.drop whole
    ds.take whole ++ List.replicate (whole - ds.length) '0' ++
      '.' :: (if fraction = [] then ['0'] else fraction)

/-- Digits, the first of which stands at `place`, with an exponent. -/
def scientific (place : Int) (ds : List Char) : List Char :=
  let fraction := ds.drop 1
  ds.take 1 ++ (if fraction = [] then [] else '.' :: fraction) ++
    'e' :: ((if place < 0 then ['-'] else []) ++ digitChars place.natAbs)

/-- The text of a decimal that is not zero. -/
def Layout.decimal (l : Layout) (d : Decimal) : List Char :=
  let all := digitChars d.digits
  let place : Int := d.exponent + all.length - 1
  let ds := dropFinalZeros all
  if l.plainFrom ≤ place ∧ place < l.plainBelow then plain place ds else scientific place ds

/-- Whether a binary64 value carries a minus sign; that of zero counts. -/
def isNegative (x : Float) : Bool :=
  Word.half ≤ x.toBits.toNat

/-- The text of a binary64 value. -/
def Layout.float (l : Layout) (x : Float) : List Char :=
  if x.isNaN then l.notANumber.toList
  else
    let body :=
      if x.isInf then l.infinity.toList
      else if x == 0.0 then plain 0 ['0']
      else l.decimal (shortest x)
    if isNegative x then '-' :: body else body

/-- The text of a binary64 value in this library's texts. -/
def floatText (x : Float) : String :=
  String.ofList (Layout.values.float x)

end ShapeFault.Decimal
