import ShapeFault.Decimal.Basic
import ShapeFault.Word

/-!
# Reading numbers

Readers for whole texts, without blanks and underscores: natural numbers, integers of 64 bits, and
binary64 values. All of them take ASCII digits only.

A binary64 value is written as an optional sign followed by `inf`, `infinity` or `nan` in any case,
or by a decimal: digits with at most one point among, before or after them, and an optional
exponent.
-/

namespace ShapeFault.Decimal

/-- A text that is split into a sign and the rest; `true` stands for a minus. -/
def splitSign : List Char → Bool × List Char
  | c :: cs => if c = '-' then (true, cs) else if c = '+' then (false, cs) else (false, c :: cs)
  | [] => (false, [])

/-- One or more digits. -/
def natural? (cs : List Char) : Option Nat :=
  if cs ≠ [] ∧ cs.all Char.isDigit then some (value cs) else none

/-- Digits with an optional sign, if the number fits in a word with a sign. -/
def int64? (cs : List Char) : Option Int := do
  let sign := splitSign cs
  let n ← natural? sign.2
  let i : Int := if sign.1 then -n else n
  if Word.Fits i then some i else none

/-- Digits with an optional plus, if the number fits in a word without a sign. -/
def size? (cs : List Char) : Option Nat := do
  let n ← natural? (match cs with
    | '+' :: cs => cs
    | _ => cs)
  if n < Word.count then some n else none

/-- The digits and the point at the front of a text, and the rest. -/
def mantissa? (cs : List Char) : Option (Decimal × List Char) :=
  let whole := cs.takeWhile Char.isDigit
  match cs.dropWhile Char.isDigit with
  | '.' :: rest =>
    let fraction := rest.takeWhile Char.isDigit
    if whole = [] ∧ fraction = [] then none
    else some (⟨value (whole ++ fraction), -fraction.length⟩, rest.dropWhile Char.isDigit)
  | rest => if whole = [] then none else some (⟨value whole, 0⟩, rest)

/-- What an exponent contributes; the empty text contributes nothing. -/
def exponent? : List Char → Option Int
  | [] => some 0
  | c :: cs =>
    if c = 'e' ∨ c = 'E' then
      let sign := splitSign cs
      (natural? sign.2).map fun n => if sign.1 then -(n : Int) else n
    else none

/-- The decimal that a text without a sign stands for. -/
def ofChars? (cs : List Char) : Option Decimal := do
  let (d, rest) ← mantissa? cs
  let e ← exponent? rest
  some ⟨d.digits, d.exponent + e⟩

/-- The binary64 value that a text without a sign stands for. -/
def magnitude? (cs : List Char) : Option Float :=
  let lower := cs.map Char.toLower
  if lower = "inf".toList ∨ lower = "infinity".toList then some (1.0 / 0.0)
  else if lower = "nan".toList then some (0.0 / 0.0)
  else (ofChars? cs).map toFloat

/-- The binary64 value that a text stands for. -/
def float? (cs : List Char) : Option Float :=
  let sign := splitSign cs
  (magnitude? sign.2).map fun x => if sign.1 then -x else x

end ShapeFault.Decimal
