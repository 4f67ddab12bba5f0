import ShapeFault.Expr.Operator
import ShapeFault.Shape.Error
import ShapeFault.Tensor.Value

/-!
# Errors of operations

Why an operation on values fails. The failures that come from shapes that do not fit together form
the **shape class**.
-/

namespace ShapeFault

inductive HostError where
  | shape (error : ShapeError)
  /-- the members of a nested list have different shapes below this depth -/
  | inhomogeneous (depth : Nat)
  | listIndexOutOfRange
  | unsupportedOperands (op : BinaryOp) (left right : TypeName)
  | notNegatable (operand : TypeName)
  /-- a tensor of other than one element is used as a truth value -/
  | ambiguousTruth
  | noAttribute (type : TypeName) (member : String)
  | notCallable (type : TypeName)
  | notSubscriptable (type : TypeName)
  | arity (function expected : String) (found : Nat)
  | argumentType (function : String) (position : Nat) (expected : String) (found : TypeName)
  | divisionByZero
  deriving DecidableEq, Repr

namespace HostError

/-- Whether the failure is in the shape class. -/
def isShapeClass : HostError → Bool
  | shape e => e.isMismatch
  | inhomogeneous _ => true
  | _ => false

def message : HostError → String
  | shape e => e.message
  | inhomogeneous depth =>
    "setting an array element with a sequence. The requested array has an inhomogeneous shape " ++
      "after " ++ depth.repr ++ " dimensions"
  | listIndexOutOfRange => "list index out of range"
  | unsupportedOperands op left right =>
    "unsupported operand type(s) for " ++ op.symbol ++ ": '" ++ left.text ++ "' and '" ++
      right.text ++ "'"
  | notNegatable operand => "bad operand type for unary -: '" ++ operand.text ++ "'"
  | ambiguousTruth => "The truth value of a tensor with more than one element is ambiguous"
  | noAttribute type member =>
    "'" ++ type.text ++ "' object has no attribute '" ++ member ++ "'"
  | notCallable type => "'" ++ type.text ++ "' object is not callable"
  | notSubscriptable type => "'" ++ type.text ++ "' object is not subscriptable"
  | arity function expected found =>
    function ++ "() takes " ++ expected ++ " arguments (" ++ found.repr ++ " given)"
  | argumentType function position expected found =>
    function ++ "() argument " ++ position.repr ++ " must be " ++ expected ++ ", not '" ++
      found.text ++ "'"
  | divisionByZero => "division by zero"

end HostError

/-- The shape that an operation on shapes gives, as a value. -/
def Value.ofShape (r : Except ShapeError Shape) : Except HostError Value :=
  match r with
  | .ok s => .ok (.tensor s)
  | .error e => .error (.shape e)

end ShapeFault
