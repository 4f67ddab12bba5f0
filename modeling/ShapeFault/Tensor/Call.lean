import ShapeFault.Shape.Axis
import ShapeFault.Shape.Concat
import ShapeFault.Shape.Product
import ShapeFault.Shape.Reshape
import ShapeFault.Tensor.Nesting
import ShapeFault.Tensor.Number

/-!
# Calls

The functions of the libraries and the methods of tensors. Their number of arguments is checked
first, then the arguments from the first to the last.
-/

namespace ShapeFault

namespace Argument

/-- An argument that has to be an integer. -/
def int (function : String) (position : Nat) : Value → Except HostError Int
  | .int n => .ok n
  | .bool b => .ok (if b then 1 else 0)
  | v => .error (.argumentType function position "int" v.typeName)

/-- An argument that has to be a tensor. -/
def tensor (function : String) (position : Nat) : Value → Except HostError Shape
  | .tensor s => .ok s
  | v => .error (.argumentType function position "Tensor" v.typeName)

/-- Arguments that have to be integers, the first of them at `position`. -/
def ints (function : String) : (position : Nat) → List Value → Except HostError (List Int)
  | _, [] => .ok []
  | position, v :: vs => do
    let n ← int function position v
    let ns ← ints function (position + 1) vs
    .ok (n :: ns)

/-- Sizes, given as integers one by one or as one list of integers. -/
def sizes (function : String) : List Value → Except HostError (List Int)
  | [.list vs] => ints function 0 vs
  | vs => ints function 0 vs

/-- Sizes that must not be negative, the first of them at `position`. -/
def naturals (function : String) : (position : Nat) → List Int → Except HostError Shape
  | _, [] => .ok []
  | position, n :: ns =>
    if n < 0 then .error (.argumentType function position "a non-negative size" .int)
    else do
      let s ← naturals function (position + 1) ns
      .ok (n.toNat :: s)

/-- The parts of a concatenation. -/
def tensors (function : String) (position : Nat) : List Value → Except HostError (List Shape)
  | [] => .ok []
  | v :: vs => do
    let s ← tensor function position v
    let ss ← tensors function position vs
    .ok (s :: ss)

end Argument

namespace Builtin

/-- A function of one number. -/
def onFloat (f : Builtin) (x : Float) : Float :=
  match f with
  | tanh => x.tanh
  | exp => x.exp
  | relu => if x.isNaN then 0.0 else if x < 0.0 then 0.0 else x
  | _ => 1.0 / (1.0 + (-x).exp)

/-- A function that is applied to every element of a tensor, or to one number. -/
def elementwise (f : Builtin) : Value → Except HostError Value
  | .tensor s => .ok (.tensor s)
  | v =>
    match Number.ofValue? v with
    | some x => .ok (.float (f.onFloat x.toFloat))
    | none => .error (.argumentType f.name 0 "Tensor" v.typeName)

/-- A product of two tensors. -/
def product (f : Builtin) (left right : Value) : Except HostError Value := do
  let a ← Argument.tensor f.name 0 left
  let b ← Argument.tensor f.name 1 right
  Value.ofShape (if f = dot then Shape.dot a b else Shape.matmul a b)

/-- A tensor of given sizes. -/
def filled (f : Builtin) (args : List Value) : Except HostError Value := do
  let ns ← Argument.sizes f.name args
  let s ← Argument.naturals f.name 0 ns
  .ok (.tensor s)

/-- The parts of a list joined along an axis. -/
def joined (f : Builtin) (parts : Value) (axis : Option Value) : Except HostError Value :=
  match parts with
  | .list vs => do
    let shapes ← Argument.tensors f.name 0 vs
    let axis ← match axis with
      | some v => Argument.int f.name 1 v
      | none => .ok 0
    Value.ofShape (Shape.concat shapes axis)
  | v => .error (.argumentType f.name 0 "a list of tensors" v.typeName)

/-- The error for a wrong number of arguments. -/
def wrongArity (f : Builtin) (expected : String) (args : List Value) : Except HostError Value :=
  .error (.arity f.name expected args.length)

/-- Calls a function. -/
def call (f : Builtin) (args : List Value) : Except HostError Value :=
  match f, args with
  | tanh, [v] | exp, [v] | relu, [v] | sigmoid, [v] => f.elementwise v
  | tanh, _ | exp, _ | relu, _ | sigmoid, _ => f.wrongArity "1 positional" args
  | matmul, [v, w] | dot, [v, w] => f.product v w
  | matmul, _ | dot, _ => f.wrongArity "2 positional" args
  | transpose, [v] => do
    let s ← Argument.tensor f.name 0 v
    .ok (.tensor s.transpose)
  | transpose, [v, first, second] => do
    let s ← Argument.tensor f.name 0 v
    let i ← Argument.int f.name 1 first
    let j ← Argument.int f.name 2 second
    Value.ofShape (s.swapAxes i j)
  | transpose, _ => f.wrongArity "1 or 3 positional" args
  | zeros, [] | ones, [] => f.wrongArity "at least 1 positional" args
  | zeros, _ | ones, _ => f.filled args
  | concat, [parts] => f.joined parts none
  | concat, [parts, axis] => f.joined parts (some axis)
  | concat, _ => f.wrongArity "1 or 2 positional" args
  | array, [v] => do
    let s ← v.arrayShape
    .ok (.tensor s)
  | array, _ => f.wrongArity "1 positional" args

end Builtin

namespace Method

/-- The error for a wrong number of arguments. -/
def wrongArity (m : Method) (expected : String) (args : List Value) : Except HostError Value :=
  .error (.arity m.name expected args.length)

/-- Calls a method of a tensor of shape `s`. -/
def call (m : Method) (s : Shape) (args : List Value) : Except HostError Value :=
  match m, args with
  | reshape, [] => m.wrongArity "at least 1 positional" args
  | reshape, _ => do
    let requested ← Argument.sizes m.name args
    Value.ofShape (s.reshape requested)
  | transpose, [] => .ok (.tensor s.transpose)
  | transpose, [first, second] => do
    let i ← Argument.int m.name 0 first
    let j ← Argument.int m.name 1 second
    Value.ofShape (s.swapAxes i j)
  | transpose, _ => m.wrongArity "0 or 2 positional" args
  | sum, [] => Value.ofShape (s.reduce none)
  | sum, [axis] => do
    let i ← Argument.int m.name 0 axis
    Value.ofShape (s.reduce (some i))
  | sum, _ => m.wrongArity "0 or 1 positional" args

end Method

end ShapeFault
