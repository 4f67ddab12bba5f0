import ShapeFault.Tensor.Error

/-!
# Nested lists

The shape of a nested list of numbers and tensors, as an array that is made of it has it. All
members of a list must have the shape of its first member; an empty list has the shape of one axis
of size zero.
-/

namespace ShapeFault.Value

mutual

/-- The shape of a value that stands `depth` lists deep. -/
def nestedShape (depth : Nat) : Value → Except HostError Shape
  | tensor s => .ok s
  | int _ | float _ | bool _ => .ok []
  | list vs => do
    let inner ← memberShape (depth + 1) Option.none vs
    .ok (vs.length :: inner)
  | str _ => notNested .str
  | none => notNested .none
  | library _ => notNested .library
  | object _ => notNested .object
  | function _ => notNested .function
  | method _ _ => notNested .method

/-- The common shape of the members of a list, given that of the members before them. -/
def memberShape (depth : Nat) (expected : Option Shape) : List Value → Except HostError Shape
  | [] => .ok (expected.getD [])
  | v :: vs => do
    let s ← nestedShape depth v
    match expected with
    | some e => if s = e then memberShape depth (some e) vs else .error (.inhomogeneous depth)
    | Option.none => memberShape depth (some s) vs

/-- The error for a value that is no part of an array. -/
def notNested (found : TypeName) : Except HostError Shape :=
  .error (.argumentType "array" 0 "a sequence of numbers" found)

end

/-- The shape of an array that is made of a value. -/
def arrayShape (v : Value) : Except HostError Shape :=
  nestedShape 0 v

end ShapeFault.Value
