import ShapeFault.Eval.Run

/-!
# A machine for trees

The steps of a tree are a list without any nesting: what has to be looked up and performed, operands
from left to right and each operation behind its operands (`Node.steps`). `runSteps` runs such a
list on a stack of values. A step takes its operands from the top of the stack and leaves its value
there, and the first step that fails ends the run. Parentheses and the targets of assignments have
no steps.

The machine knows nothing of trees: a step carries the node that it belongs to, but only to name it
in a trap.
-/

namespace ShapeFault

variable {V E : Type}

/-! ### Steps -/

/-- How an item of an index takes its values: one value, the bounds that are present, or none. -/
inductive ItemLayout where
  | value
  | slice (start stop step : Bool)
  | full
  | ellipsis
  deriving DecidableEq, Repr

/-- What a step does. -/
inductive Instruction where
  | lookup (id : String)
  | literal (lit : Literal)
  | unary (op : UnaryOp)
  | binary (op : BinaryOp)
  | member (id : String)
  | call (argCount : Nat)
  | index (layout : List ItemLayout)
  | list (length : Nat)

/-- An instruction with the node that it belongs to. -/
structure Step where
  node : Node
  instruction : Instruction

def IndexItem.layout : IndexItem → ItemLayout
  | .expr _ => .value
  | .slice a b c _ => .slice a.isSome b.isSome c.isSome
  | .full => .full
  | .ellipsis => .ellipsis

mutual

/-- The steps of a tree. -/
def Node.steps : Node → List Step
  | .name id => [⟨.name id, .lookup id⟩]
  | .literal l => [⟨.literal l, .literal l⟩]
  | .unary op e => e.steps ++ [⟨.unary op e, .unary op⟩]
  | .binary op a b => a.steps ++ b.steps ++ [⟨.binary op a b, .binary op⟩]
  | .assign _ _ v => v.steps
  | .member e id => e.steps ++ [⟨.member e id, .member id⟩]
  | .call f as => f.steps ++ Node.stepsList as ++ [⟨.call f as, .call as.length⟩]
  | .index a is =>
    a.steps ++ IndexItem.stepsList is ++ [⟨.index a is, .index (is.map IndexItem.layout)⟩]
  | .list es => Node.stepsList es ++ [⟨.list es, .list es.length⟩]
  | .paren e => e.steps

/-- The steps of the trees of a list. -/
def Node.stepsList : List Node → List Step
  | [] => []
  | e :: es => e.steps ++ Node.stepsList es

/-- The steps of a bound of a slice. -/
def Node.stepsBound : Option Node → List Step
  | none => []
  | some e => e.steps

/-- The steps of an item of an index; the bounds of a slice in the order start, stop, step. -/
def IndexItem.steps : IndexItem → List Step
  | .expr e => e.steps
  | .slice a b c _ => Node.stepsBound a ++ Node.stepsBound b ++ Node.stepsBound c
  | .full | .ellipsis => []

/-- The steps of the items of an index. -/
def IndexItem.stepsList : List IndexItem → List Step
  | [] => []
  | i :: is => i.steps ++ IndexItem.stepsList is

end

/-! ### Operands on the stack -/

namespace ItemLayout

/-- How many values an item takes. -/
def size : ItemLayout → Nat
  | value => 1
  | slice a b c => a.toNat + b.toNat + c.toNat
  | full | ellipsis => 0

/-- How many values the items of a list take together. -/
def totalSize : List ItemLayout → Nat
  | [] => 0
  | l :: ls => l.size + totalSize ls

/-- Takes a bound from the front of the values if it is present. -/
def takeBound? : Bool → List V → Option (Option V × List V)
  | false, vs => some (none, vs)
  | true, v :: vs => some (some v, vs)
  | true, [] => none

/-- Takes an item from the front of the values. -/
def take? : ItemLayout → List V → Option (IndexValue V × List V)
  | value, v :: vs => some (.value v, vs)
  | value, [] => none
  | slice a b c, vs => do
    let (start, vs) ← takeBound? a vs
    let (stop, vs) ← takeBound? b vs
    let (step, vs) ← takeBound? c vs
    some (.slice start stop step, vs)
  | full, vs => some (.full, vs)
  | ellipsis, vs => some (.ellipsis, vs)

/-- Takes all items from the values and leaves none over. -/
def takeAll? : List ItemLayout → List V → Option (List (IndexValue V))
  | [], [] => some []
  | [], _ :: _ => none
  | l :: ls, vs => do
    let (i, vs) ← l.take? vs
    let is ← takeAll? ls vs
    some (i :: is)

end ItemLayout

/-- Takes `n` values from the top of a stack, the lowest one of them first. -/
def pop? (n : Nat) (stack : List V) : Option (List V × List V) :=
  if n ≤ stack.length then some ((stack.take n).reverse, stack.drop n) else none

namespace Instruction

/-- How many values an instruction takes from the stack. -/
def arity : Instruction → Nat
  | lookup _ | literal _ => 0
  | unary _ | member _ => 1
  | binary _ => 2
  | call n => n + 1
  | index ls => ItemLayout.totalSize ls + 1
  | list n => n

/-- The operation that an instruction asks the host for, given its operands. For the instructions
that can trap, also the operands that a trap records. -/
def operation? : Instruction → List V → Option (Operation V × Option (Operands V))
  | literal l, [] => some (.literal l, none)
  | unary op, [v] => some (.unary op v, some (.unary v))
  | binary op, [v, u] => some (.binary op v u, some (.binary v u))
  | member id, [v] => some (.member v id, none)
  | call _, v :: vs => some (.call v vs, some (.call v vs))
  | index ls, v :: vs => (ItemLayout.takeAll? ls vs).map fun is => (.index v is, some (.index v is))
  | list _, vs => some (.list vs, none)
  | _, _ => none

end Instruction

/-! ### Runs -/

/-- Goes on after a run with what can get stuck. -/
def Run.feed {α β : Type} (r : Run V E α) (k : α → Option (Run V E β)) : Option (Run V E β) :=
  match r.outcome with
  | .ok a => (k a).map fun s => ⟨r.performed ++ s.performed, s.outcome⟩
  | .error x => some ⟨r.performed, .error x⟩

/-- Why a step of a node fails: with a trap if it records operands and the classifier takes the
cause for one about shapes, and with the failure of the host otherwise. -/
def Step.failure (w : World V E) (s : Step) (recorded : Option (Operands V)) (cause : E) :
    EvalError V E :=
  match recorded with
  | some operands => if w.isShapeFailure cause then .trap ⟨s.node, operands, cause⟩ else .host cause
  | none => .host cause

/-- Executes one step. It gets stuck if the stack does not hold its operands. -/
def Step.execute (w : World V E) (s : Step) (stack : List V) : Option (Run V E (List V)) :=
  match s.instruction with
  | .lookup id =>
    match w.lookup id with
    | some v => some ⟨[], .ok (v :: stack)⟩
    | none => some ⟨[], .error (.unbound id)⟩
  | i => do
    let (operands, rest) ← pop? i.arity stack
    let (o, recorded) ← i.operation? operands
    match w.host o with
    | .ok v => some ⟨[⟨o, .ok v⟩], .ok (v :: rest)⟩
    | .error cause => some ⟨[⟨o, .error cause⟩], .error (s.failure w recorded cause)⟩

/-- Runs steps up to the first one that fails. -/
def runSteps (w : World V E) : List Step → List V → Option (Run V E (List V))
  | [], stack => some (pure stack)
  | s :: ss, stack => (s.execute w stack).bind fun r => r.feed (runSteps w ss)

end ShapeFault
