import ShapeFault.Decimal.Notation
import ShapeFault.Expr.Source
import ShapeFault.Shape.Basic
import ShapeFault.Tensor.Library

/-!
# Values

The values of expressions. A tensor is known by its shape only; plain numbers are known exactly,
integers being those of 64 bits.
-/

namespace ShapeFault

inductive Value where
  | int (n : Int)
  | float (x : Float)
  | bool (b : Bool)
  | str (s : String)
  | none
  | tensor (shape : Shape)
  | list (elems : List Value)
  | library (lib : Library)
  /-- a bag of attributes -/
  | object (fields : List (String × Value))
  | function (builtin : Builtin)
  | method (receiver : Shape) (method : Method)

/-- What a value is, by the name that messages use. An index of several components is a tuple; no
value is one. -/
inductive TypeName where
  | int
  | float
  | bool
  | str
  | none
  | tensor
  | list
  | library
  | object
  | function
  | method
  | tuple
  deriving DecidableEq, Repr

def TypeName.text : TypeName → String
  | int => "int"
  | float => "float"
  | bool => "bool"
  | str => "str"
  | none => "NoneType"
  | tensor => "Tensor"
  | list => "list"
  | library => "module"
  | object => "object"
  | function => "builtin_function"
  | method => "method"
  | tuple => "tuple"

namespace Value

def typeName : Value → TypeName
  | int _ => .int
  | float _ => .float
  | bool _ => .bool
  | str _ => .str
  | none => .none
  | tensor _ => .tensor
  | list _ => .list
  | library _ => .library
  | object _ => .object
  | function _ => .function
  | method _ _ => .method

/-- The shape of a tensor. -/
def shape? : Value → Option Shape
  | tensor s => some s
  | _ => Option.none

mutual

/-- The text of a value. -/
def text : Value → String
  | int n => Decimal.intText n
  | float x => Decimal.floatText x
  | bool true => "True"
  | bool false => "False"
  | str s => "'" ++ s ++ "'"
  | none => "None"
  | tensor s => "tensor of shape " ++ s.text
  | list vs => "[" ++ commaSeparated (texts vs) ++ "]"
  | library l => "<module '" ++ l.name ++ "'>"
  | object _ => "<object>"
  | function f => "<built-in function " ++ f.name ++ ">"
  | method _ m => "<built-in method " ++ m.name ++ ">"

/-- The text of each value of a list. -/
def texts : List Value → List String
  | [] => []
  | v :: vs => text v :: texts vs

end

mutual

/-- Whether two values have the same form and the same parts. Floats are compared as numbers, so
that a value that is not a number differs from itself; an integer never equals a float. The order of
attributes does not matter. -/
def same : Value → Value → Bool
  | int m, int n => m == n
  | float x, float y => x == y
  | bool a, bool b => a == b
  | str s, str t => s == t
  | none, none => true
  | tensor s, tensor t => s == t
  | list vs, list ws => sameList vs ws
  | library l, library m => l == m
  | object as, object bs => as.length == bs.length && sameFields as bs
  | function f, function g => f == g
  | method s m, method t n => s == t && m == n
  | _, _ => false

/-- `same` at every position of two lists of one length. -/
def sameList : List Value → List Value → Bool
  | [], [] => true
  | v :: vs, w :: ws => same v w && sameList vs ws
  | _, _ => false

/-- Whether each of the first attributes is one of the second attributes. -/
def sameFields : List (String × Value) → List (String × Value) → Bool
  | [], _ => true
  | (name, v) :: as, bs =>
    (match bs.lookup name with
      | some w => same v w
      | Option.none => false) && sameFields as bs

end

end Value

end ShapeFault
