/-!
# Decimals

A decimal is a number `digits * 10 ^ exponent`. Every decimal has one nearest binary64 value, ties
going to the even one: `Decimal.toFloat`.
-/

namespace ShapeFault

/-- The number `digits * 10 ^ exponent`. -/
structure Decimal where
  digits : Nat
  exponent : Int
  deriving DecidableEq, Repr

namespace Decimal

/-- The decimal digits of a number, the leading one first. -/
def digitChars (n : Nat) : List Char :=
  Nat.toDigits 10 n

/-- The value of a list of decimal digits. -/
def value (cs : List Char) : Nat :=
  Nat.ofDigitChars 10 cs 0

theorem value_digitChars (n : Nat) : value (digitChars n) = n := by
  simp [value, digitChars, Nat.ofDigitChars_ten_toDigits]

/-- The text of an integer: its digits, after a minus if it is negative. -/
def intChars (n : Int) : List Char :=
  if n < 0 then '-' :: digitChars n.natAbs else digitChars n.natAbs

def intText (n : Int) : String :=
  String.ofList (intChars n)

/-- The number of digits in front of the point, negative for zeros behind it. -/
def magnitude (d : Decimal) : Int :=
  (digitChars d.digits).length + d.exponent

/-- The nearest binary64 value. Numbers of more than 310 digits before the point are too large for
a finite one, and those with more than 330 zeros behind it round to zero. -/
def toFloat (d : Decimal) : Float :=
  if d.digits = 0 then 0.0
  else if 310 < d.magnitude then 1.0 / 0.0
  else if d.magnitude < -330 then 0.0
  else Float.ofScientific d.digits (d.exponent < 0) d.exponent.natAbs

end Decimal

end ShapeFault
