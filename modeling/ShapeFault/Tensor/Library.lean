/-!
# Libraries

The two array libraries, their functions, and the methods of tensors. Both libraries share most
functions, some of them under names of their own.
-/

namespace ShapeFault

inductive Library where
  | numpy
  | torch
  deriving DecidableEq, Repr

/-- A function of a library. -/
inductive Builtin where
  | tanh
  | exp
  | relu
  | sigmoid
  | matmul
  | dot
  | transpose
  | zeros
  | ones
  | concat
  | array
  deriving DecidableEq, Repr

/-- A method of tensors. -/
inductive Method where
  | reshape
  | transpose
  | sum
  deriving DecidableEq, Repr

namespace Builtin

/-- The name that a function goes by in messages, whatever it was called by. -/
def name : Builtin → String
  | tanh => "tanh"
  | exp => "exp"
  | relu => "relu"
  | sigmoid => "sigmoid"
  | matmul => "matmul"
  | dot => "dot"
  | transpose => "transpose"
  | zeros => "zeros"
  | ones => "ones"
  | concat => "cat"
  | array => "array"

/-- Every function. -/
def all : List Builtin :=
  [tanh, exp, relu, sigmoid, matmul, dot, transpose, zeros, ones, concat, array]

end Builtin

namespace Library

def name : Library → String
  | numpy => "numpy"
  | torch => "torch"

/-- The functions that both libraries have under one name. -/
def shared : List (String × Builtin) :=
  [("tanh", .tanh), ("exp", .exp), ("matmul", .matmul), ("dot", .dot),
   ("transpose", .transpose), ("zeros", .zeros), ("ones", .ones)]

/-- The functions that a library has on its own, or under a name of its own. -/
def own : Library → List (String × Builtin)
  | numpy => [("concatenate", .concat), ("array", .array)]
  | torch => [("cat", .concat), ("tensor", .array), ("relu", .relu), ("sigmoid", .sigmoid),
      ("mm", .matmul)]

/-- The function of a library with a given name. -/
def function? (l : Library) (name : String) : Option Builtin :=
  (shared ++ l.own).lookup name

end Library

namespace Method

/-- The name that a method goes by in messages. -/
def name : Method → String
  | reshape => "reshape"
  | transpose => "transpose"
  | sum => "sum"

/-- The methods by their names in code. -/
def table : List (String × Method) :=
  [("reshape", .reshape), ("view", .reshape), ("transpose", .transpose), ("sum", .sum)]

/-- The method with a given name. -/
def ofName? (name : String) : Option Method :=
  table.lookup name

end Method

end ShapeFault
