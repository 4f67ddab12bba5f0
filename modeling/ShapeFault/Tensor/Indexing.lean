import ShapeFault.Eval.Operation
import ShapeFault.Shape.Index
import ShapeFault.Tensor.Call

/-!
# Indexing values

Tensors are indexed by any number of items, lists by one item, which is an integer or a slice.
-/

namespace ShapeFault

namespace IndexValue

/-- A bound of a slice. `None` stands for an absent bound. -/
def bound (position : Nat) : Option Value → Except HostError (Option Int)
  | none => .ok none
  | some .none => .ok none
  | some v => (Argument.int "slice" position v).map some

/-- The slice with the given bounds. -/
def sliceOf (start stop step : Option Value) : Except HostError Slice := do
  let start ← bound 0 start
  let stop ← bound 1 stop
  let step ← bound 2 step
  .ok ⟨start, stop, step⟩

/-- The selector that an item of an index stands for. A list stands for the array made of it. -/
def selector : IndexValue Value → Except HostError Selector
  | value (.int n) => .ok (.int n)
  | value (.bool b) => .ok (.int (if b then 1 else 0))
  | value .none => .ok .newAxis
  | value (.tensor s) => .ok (.array s)
  | value (.list vs) => do
    let s ← (Value.list vs).arrayShape
    .ok (.array s)
  | value v =>
    .error (.argumentType "index" 0 "an integer, slice, None, Ellipsis or integer tensor"
      v.typeName)
  | slice start stop step => do
    let s ← sliceOf start stop step
    .ok (.slice s)
  | full => .ok .full
  | ellipsis => .ok .ellipsis

/-- The selectors of the items of an index. -/
def selectors : List (IndexValue Value) → Except HostError (List Selector)
  | [] => .ok []
  | i :: is => do
    let s ← i.selector
    let ss ← selectors is
    .ok (s :: ss)

end IndexValue

namespace Value

/-- The error for an item that cannot index a list. -/
def badListIndex (found : TypeName) : HostError :=
  .argumentType "list index" 0 "an integer or slice" found

/-- What a selector takes from a list. -/
def selectFromList (vs : List Value) : Selector → Except HostError Value
  | .int n =>
    let position := if n < 0 then n + vs.length else n
    if position < 0 then .error .listIndexOutOfRange
    else
      match vs[position.toNat]? with
      | some v => .ok v
      | Option.none => .error .listIndexOutOfRange
  | .full => .ok (list vs)
  | .slice s =>
    match s.select vs with
    | .ok ws => .ok (list ws)
    | .error e => .error (.shape e)
  | .ellipsis | .newAxis | .array _ => .error (badListIndex .none)

/-- Indexes a list. -/
def indexList (vs : List Value) : List (IndexValue Value) → Except HostError Value
  | [item] => do
    let s ← item.selector
    selectFromList vs s
  | _ => .error (badListIndex .tuple)

/-- Indexes a value. -/
def index (v : Value) (items : List (IndexValue Value)) : Except HostError Value :=
  match v with
  | tensor s => do
    let selectors ← IndexValue.selectors items
    ofShape (s.index selectors)
  | list vs => indexList vs items
  | v => .error (.notSubscriptable v.typeName)

end Value

end ShapeFault
