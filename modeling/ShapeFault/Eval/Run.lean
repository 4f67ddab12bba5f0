import ShapeFault.Eval.Operation
import ShapeFault.Expr.Source

/-!
# Evaluation

A tree is evaluated from the inside out: operands from left to right, then the operation of the node
itself. The first failure ends the evaluation. If it is a failure of a unary or binary operation, a
call or an index, and the classifier takes it for one about shapes, it is a **trap**: it names the
node and the operands that its operation was given.

A `Run` is the outcome of an evaluation together with the operations that were performed for it, in
their order; `Node.run` evaluates a tree, and `Node.eval` is its outcome alone.
-/

namespace ShapeFault

/-- What an evaluation depends on. -/
structure World (V E : Type) where
  host : Host V E
  /-- whether a failure of the host is about shapes -/
  isShapeFailure : E → Bool
  /-- the values of the names that are bound -/
  lookup : String → Option V

/-- A failure about shapes, with the smallest node whose own operation failed and its operands. -/
structure Trap (V E : Type) where
  node : Node
  operands : Operands V
  cause : E

/-- Why an evaluation has no value. -/
inductive EvalError (V E : Type) where
  | unbound (id : String)
  | trap (trap : Trap V E)
  | host (cause : E)

/-- A performed operation and its result. -/
structure Performed (V E : Type) where
  operation : Operation V
  result : Except E V

/-- The outcome of an evaluation, and the operations performed for it. -/
structure Run (V E α : Type) where
  performed : List (Performed V E)
  outcome : Except (EvalError V E) α

namespace Run

variable {V E α β : Type}

/-- An outcome for which nothing has to be performed. -/
def ofOutcome (r : Except (EvalError V E) α) : Run V E α :=
  ⟨[], r⟩

/-- Goes on with the value of a run, if it has one. -/
def andThen (r : Run V E α) (f : α → Run V E β) : Run V E β :=
  match r.outcome with
  | .ok a =>
    let s := f a
    ⟨r.performed ++ s.performed, s.outcome⟩
  | .error e => ⟨r.performed, .error e⟩

instance : Monad (Run V E) where
  pure a := ofOutcome (.ok a)
  bind := andThen

@[simp] theorem outcome_pure (a : α) : (pure a : Run V E α).outcome = .ok a :=
  rfl

@[simp] theorem outcome_bind (r : Run V E α) (f : α → Run V E β) :
    (r >>= f).outcome = r.outcome.bind fun a => (f a).outcome := by
  change (andThen r f).outcome = _
  unfold andThen
  cases r.outcome <;> rfl

end Run

namespace World

variable {V E : Type}

/-- The error of a failed operation of a node. -/
def errorOf (w : World V E) (node : Node) (o : Operation V) (cause : E) : EvalError V E :=
  match o.operands? with
  | some operands => if w.isShapeFailure cause then .trap ⟨node, operands, cause⟩ else .host cause
  | none => .host cause

/-- Performs the operation of a node. -/
def perform (w : World V E) (node : Node) (o : Operation V) : Run V E V :=
  let result := w.host o
  ⟨[⟨o, result⟩], result.mapError (w.errorOf node o)⟩

/-- The value of a name. -/
def valueOf (w : World V E) (id : String) : Run V E V :=
  match w.lookup id with
  | some v => .ofOutcome (.ok v)
  | none => .ofOutcome (.error (.unbound id))

end World

variable {V E : Type}

mutual

/-- Evaluates a tree. An assignment has the value of its right side; nothing is stored, and its
target is not evaluated. -/
def Node.run (w : World V E) : Node → Run V E V
  | .name id => w.valueOf id
  | .literal l => w.perform (.literal l) (.literal l)
  | .unary op e => do
    let v ← e.run w
    w.perform (.unary op e) (.unary op v)
  | .binary op a b => do
    let v ← a.run w
    let u ← b.run w
    w.perform (.binary op a b) (.binary op v u)
  | .assign _ _ e => e.run w
  | .member e id => do
    let v ← e.run w
    w.perform (.member e id) (.member v id)
  | .call f as => do
    let v ← f.run w
    let vs ← Node.runList w as
    w.perform (.call f as) (.call v vs)
  | .index a is => do
    let v ← a.run w
    let vs ← IndexItem.runList w is
    w.perform (.index a is) (.index v vs)
  | .list es => do
    let vs ← Node.runList w es
    w.perform (.list es) (.list vs)
  | .paren e => e.run w

/-- Evaluates the trees of a list in their order. -/
def Node.runList (w : World V E) : List Node → Run V E (List V)
  | [] => pure []
  | e :: es => do
    let v ← e.run w
    let vs ← Node.runList w es
    pure (v :: vs)

/-- Evaluates a bound of a slice. -/
def Node.runBound (w : World V E) : Option Node → Run V E (Option V)
  | none => pure none
  | some e => do
    let v ← e.run w
    pure (some v)

/-- Evaluates an item of an index; the bounds of a slice in the order start, stop, step. -/
def IndexItem.run (w : World V E) : IndexItem → Run V E (IndexValue V)
  | .expr e => do
    let v ← e.run w
    pure (.value v)
  | .slice a b c _ => do
    let start ← Node.runBound w a
    let stop ← Node.runBound w b
    let step ← Node.runBound w c
    pure (.slice start stop step)
  | .full => pure .full
  | .ellipsis => pure .ellipsis

/-- Evaluates the items of an index in their order. -/
def IndexItem.runList (w : World V E) : List IndexItem → Run V E (List (IndexValue V))
  | [] => pure []
  | i :: is => do
    let v ← i.run w
    let vs ← IndexItem.runList w is
    pure (v :: vs)

end

/-- The value of a tree, or why it has none. -/
def Node.eval (w : World V E) (e : Node) : Except (EvalError V E) V :=
  (e.run w).outcome

namespace Trap

/-- The text of a trap, given the text of its cause. -/
def message (t : Trap V E) (causeText : E → String) : String :=
  "shape mismatch in `" ++ t.node.source ++ "`: " ++ causeText t.cause

end Trap

namespace EvalError

/-- The trap of an error that is one. -/
def trap? : EvalError V E → Option (Trap V E)
  | trap t => some t
  | unbound _ | host _ => none

/-- The text of an error, given the texts of the failures of the host. -/
def message (causeText : E → String) : EvalError V E → String
  | unbound id => "name '" ++ id ++ "' is not defined"
  | trap t => t.message causeText
  | host e => causeText e

end EvalError

end ShapeFault
