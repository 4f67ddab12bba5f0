import ShapeFault.Eval.Run
import ShapeFault.Tensor.Indexing

/-!
# The tensor host

The world of tensors that are known by their shapes: what every operation gives on values, and the
names that are bound at the start.
-/

namespace ShapeFault

namespace Value

/-- Whether a value counts as true. A tensor has a truth value only if it has one element. -/
def truth : Value → Except HostError Bool
  | int n => .ok (n != 0)
  | float x => .ok (x != 0.0)
  | bool b => .ok b
  | str s => .ok (s != "")
  | none => .ok false
  | list vs => .ok (!vs.isEmpty)
  | tensor s => if s.elementCount = some 1 then .ok true else .error .ambiguousTruth
  | library _ | object _ | function _ | method _ _ => .ok true

/-- The value of a literal. -/
def ofLiteral : Literal → Value
  | .int _ n => int n
  | .float _ x => float x
  | .str _ s => str s
  | .bool b => bool b
  | .none => none

/-- The shape with which a value takes part in broadcasting; numbers have no axes. -/
def broadcastShape? : Value → Option Shape
  | tensor s => some s
  | int _ | float _ | bool _ => some []
  | _ => Option.none

def isTensor : Value → Bool
  | tensor _ => true
  | _ => false

/-- Applies a unary operator. -/
def unary (op : UnaryOp) (v : Value) : Except HostError Value :=
  match op with
  | .not => do
    let b ← v.truth
    .ok (bool !b)
  | .neg =>
    match v with
    | tensor s => .ok (tensor s)
    | v =>
      match Number.ofValue? v with
      | some x => .ok x.negate
      | Option.none => .error (.notNegatable v.typeName)

/-- The error for operands that an operator does not take. -/
def unsupported (op : BinaryOp) (v w : Value) : Except HostError Value :=
  .error (.unsupportedOperands op v.typeName w.typeName)

/-- Compares two values that are no tensors. All values can be compared for equality, only numbers
for order. -/
def compare (op : BinaryOp) (c : Comparison) (v w : Value) : Except HostError Value :=
  match Number.ofValue? v, Number.ofValue? w with
  | some x, some y => .ok (bool (x.compare c y))
  | _, _ =>
    match c with
    | .eq => .ok (bool (v.same w))
    | .ne => .ok (bool !(v.same w))
    | _ => unsupported op v w

/-- Combines two values that are no tensors. Strings and lists can be joined by `+`. -/
def combine (op : BinaryOp) (v w : Value) : Except HostError Value :=
  match op, v, w with
  | .add, str s, str t => .ok (str (s ++ t))
  | .add, list vs, list ws => .ok (list (vs ++ ws))
  | op, v, w =>
    match op.arithmetic?, Number.ofValue? v, Number.ofValue? w with
    | some a, some x, some y => x.arithmetic a y
    | _, _, _ => unsupported op v w

/-- Applies a binary operator other than `and`, `or` and `@`. -/
def plainBinary (op : BinaryOp) (v w : Value) : Except HostError Value :=
  if v.isTensor || w.isTensor then
    match v.broadcastShape?, w.broadcastShape? with
    | some s, some t => ofShape (s.broadcast t)
    | _, _ => unsupported op v w
  else
    match op.comparison? with
    | some c => compare op c v w
    | Option.none => combine op v w

/-- Applies a binary operator. Both operands of `and` and `or` are given; the result is one of
them. -/
def binary (op : BinaryOp) (v w : Value) : Except HostError Value :=
  match op with
  | .and => do
    let b ← v.truth
    .ok (if b then w else v)
  | .or => do
    let b ← v.truth
    .ok (if b then v else w)
  | .matmul =>
    match v, w with
    | tensor s, tensor t => ofShape (s.matmul t)
    | v, w => unsupported .matmul v w
  | op => plainBinary op v w

/-- Looks up a member. -/
def member (v : Value) (id : String) : Except HostError Value :=
  let found : Option Value :=
    match v with
    | tensor s =>
      if id = "T" then some (tensor s.transpose)
      else if id = "shape" then some (list (s.map fun n => int (Word.asSigned n)))
      else if id = "ndim" then some (int s.rank)
      else (Method.ofName? id).map (method s)
    | library l => (l.function? id).map function
    | object fields => fields.lookup id
    | _ => Option.none
  match found with
  | some u => .ok u
  | Option.none => .error (.noAttribute v.typeName id)

/-- Calls a value. -/
def call (f : Value) (args : List Value) : Except HostError Value :=
  match f with
  | function b => b.call args
  | method s m => m.call s args
  | v => .error (.notCallable v.typeName)

end Value

/-- Performs an operation on values. -/
def tensorHost : Host Value HostError
  | .literal l => .ok (.ofLiteral l)
  | .unary op v => v.unary op
  | .binary op v w => v.binary op w
  | .member v id => v.member id
  | .call f args => f.call args
  | .index v items => v.index items
  | .list vs => .ok (.list vs)

/-- The values of the names that are bound. -/
abbrev Environment :=
  String → Option Value

namespace Environment

/-- The libraries under their usual names. -/
def prelude : Environment := fun id =>
  [("np", Value.library .numpy), ("numpy", .library .numpy), ("torch", .library .torch)].lookup id

/-- Binds a name, in place of what it was bound to. -/
def bind (env : Environment) (id : String) (v : Value) : Environment := fun name =>
  if name = id then some v else env name

/-- Takes a name away. -/
def unbind (env : Environment) (id : String) : Environment := fun name =>
  if name = id then none else env name

end Environment

/-- The world of tensors with the classifier of its own errors. -/
def tensorWorld (env : Environment) : World Value HostError :=
  ⟨tensorHost, HostError.isShapeClass, env⟩

end ShapeFault
