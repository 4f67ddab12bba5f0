import ShapeFault.Tensor.Error
import ShapeFault.Word

/-!
# Arithmetic on numbers

Numbers are integers of 64 bits and binary64 values; the truth values count as 0 and 1. An operation
on two integers is exact as long as its result fits, and is done on binary64 values otherwise.
-/

namespace ShapeFault

inductive Number where
  | int (n : Int)
  | float (x : Float)

/-- The arithmetic operators. -/
inductive ArithmeticOp where
  | add
  | sub
  | mul
  | div
  | floorDiv
  | mod
  | pow
  deriving DecidableEq, Repr

/-- The operators that compare. -/
inductive Comparison where
  | eq
  | ne
  | lt
  | le
  | gt
  | ge
  deriving DecidableEq, Repr

namespace Number

/-- The number that a value is. -/
def ofValue? : Value → Option Number
  | .int n => some (int n)
  | .bool b => some (int (if b then 1 else 0))
  | .float x => some (float x)
  | _ => none

/-- The nearest binary64 value. -/
def toFloat : Number → Float
  | int n => Float.ofInt n
  | float x => x

def isZero : Number → Bool
  | int n => n == 0
  | float x => x == 0.0

/-- An integer if there is one, and otherwise the result on binary64 values. -/
def exactOr (n : Option Int) (x : Float) : Value :=
  match n with
  | some n => .int n
  | none => .float x

/-- An arithmetic operation on binary64 values. Quotients are rounded down; a remainder is what the
rounded quotient leaves. -/
def floatArithmetic (op : ArithmeticOp) (x y : Float) : Float :=
  match op with
  | .add => x + y
  | .sub => x - y
  | .mul => x * y
  | .div => x / y
  | .floorDiv => (x / y).floor
  | .mod => x - y * (x / y).floor
  | .pow => x.pow y

/-- A power of integers with an exponent from 0 up to and not including `2 ^ 32`, if it fits in a
word. The powers of -1, 0 and 1 repeat from the exponent 1 on with period two; other bases have no
power that fits from the exponent 64 on. -/
def intPower? (n k : Int) : Option Int :=
  if 0 ≤ k ∧ k < 4294967296 then
    if n.natAbs ≤ 1 then some (Int.pow n (min k.toNat (2 - k.toNat % 2)))
    else if k < 64 ∧ Word.Fits (Int.pow n k.toNat) then some (Int.pow n k.toNat)
    else none
  else none

/-- An arithmetic operation on integers, of which the second is not zero for quotients and
remainders. Quotients are rounded down. -/
def intArithmetic (op : ArithmeticOp) (m n : Int) : Value :=
  let inexact := floatArithmetic op (Float.ofInt m) (Float.ofInt n)
  match op with
  | .add => exactOr (Word.checked? (m + n)) inexact
  | .sub => exactOr (Word.checked? (m - n)) inexact
  | .mul => exactOr (Word.checked? (m * n)) inexact
  | .div => .float inexact
  | .floorDiv => exactOr (Word.floorQuotient? m n) inexact
  | .mod => exactOr (Word.floorRemainder? m n) inexact
  | .pow => exactOr (intPower? m n) inexact

/-- An arithmetic operation. -/
def arithmetic (op : ArithmeticOp) (x y : Number) : Except HostError Value :=
  if (op = .div ∨ op = .floorDiv ∨ op = .mod) ∧ y.isZero then .error .divisionByZero
  else
    match x, y with
    | int m, int n => .ok (intArithmetic op m n)
    | x, y => .ok (.float (floatArithmetic op x.toFloat y.toFloat))

/-- The number with the opposite sign. -/
def negate : Number → Value
  | int n => exactOr (Word.checked? (-n)) (-(Float.ofInt n))
  | float x => .float (-x)

/-- A comparison of two numbers. A value that is not a number is neither equal to anything nor less
or greater. -/
def compare (c : Comparison) (x y : Number) : Bool :=
  match x, y with
  | int m, int n =>
    match c with
    | .eq => m == n
    | .ne => m != n
    | .lt => m < n
    | .le => m ≤ n
    | .gt => n < m
    | .ge => n ≤ m
  | x, y =>
    let a := x.toFloat
    let b := y.toFloat
    match c with
    | .eq => a == b
    | .ne => a != b
    | .lt => a < b
    | .le => a ≤ b
    | .gt => b < a
    | .ge => b ≤ a

end Number

namespace BinaryOp

def arithmetic? : BinaryOp → Option ArithmeticOp
  | add => some .add
  | sub => some .sub
  | mul => some .mul
  | div => some .div
  | floorDiv => some .floorDiv
  | mod => some .mod
  | pow => some .pow
  | _ => none

def comparison? : BinaryOp → Option Comparison
  | eq => some .eq
  | ne => some .ne
  | lt => some .lt
  | le => some .le
  | gt => some .gt
  | ge => some .ge
  | _ => none

end BinaryOp

end ShapeFault
