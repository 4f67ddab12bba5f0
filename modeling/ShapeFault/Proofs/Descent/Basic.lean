import ShapeFault.Expr.Parser
import ShapeFault.Proofs.Grammar.Phrase

/-!
# Descending through the tokens

The reader of lines keeps a stack of open constructs and takes each token once. A descent reads the
same lines another way: a position in a list of tokens, one function for each form of phrase that
calls those for its parts, and loops for what may be repeated. A list with no mark of an end at its
end gets one. No function looks whether tokens are left, and where the position is on the last token
`Tokens.advance` stays there without a word.

Nothing in these definitions says that such a run ends. They are the least solutions of their
equations, and a run that never ends is `none`. One that looks at a place outside of the list, or
cuts a text in the middle of a character, ends with `Halt.crashed`.

A run also writes down where it has been, in its `Trail`. No function reads that part of it.
-/

namespace ShapeFault

open Token (Kind)

/-- Whether the bytes behind the first one and in front of the last one are whole characters. A text
of one byte has none between them. -/
def Text.hasInside (s : String) : Bool :=
  (String.Pos.Raw.mk 1).isValid s &&
    (String.Pos.Raw.mk (max (s.utf8ByteSize - 1) 1)).isValid s

/-- The operator of a tier that a token of this kind writes. -/
def Tier.operator? (l : Tier) (k : Kind) : Option BinaryOp :=
  BinaryOp.all.find? fun op => op.tier = l ∧ op.kind = k

namespace Descent

/-- From one position to another. -/
structure Stride where
  start : Nat
  stop : Nat

/-- The position of a run, with what is written down of it. -/
structure Trail where
  position : Nat
  /-- every position up to now, the last one first -/
  visited : List Nat
  /-- what each call that has returned and each round of a loop has passed, the last one first -/
  strides : List Stride

/-- How a run ends without a result. -/
inductive Halt where
  | refused (error : ParseError)
  | crashed

/-- Where the last token stops. -/
def lastStop (ts : List Token) : Nat :=
  (ts.getLast?.map (·.span.stop)).getD 0

/-- The list with a mark of an end behind it, if its last token is none. -/
def ended (ts : List Token) : List Token :=
  if ts.getLast?.all (·.kind ≠ .endMarker) then ts ++ [Token.ending (lastStop ts)] else ts

end Descent

/-- A part of a run: from a trail to a result and the trail behind it, or to no end. -/
abbrev Descent (α : Type) : Type :=
  ExceptT Descent.Halt (StateT Descent.Trail Option) α

namespace Descent

/-- Writes down what has been passed since `start`. -/
def note (start : Nat) : Descent Unit :=
  modify fun s => { s with strides := ⟨start, s.position⟩ :: s.strides }

/-- Returns from a call that began at `start`. -/
def arrive {α : Type} (start : Nat) (a : α) : Descent α := do
  note start
  return a

/-- The position. -/
def position : Descent Nat :=
  return (← get).position

/-- The tokens that a run is over. -/
abbrev Tokens : Type :=
  List Token

namespace Tokens

/-- The token at the position. -/
def current (tokens : Tokens) : Descent Token := do
  match tokens[← position]? with
  | some t => return t
  | none => throw .crashed

/-- Goes to the next token, if there is one. -/
def advance (tokens : Tokens) : Descent Unit := do
  let p ← position
  if p + 1 < tokens.length then
    modify fun s => { s with position := p + 1, visited := (p + 1) :: s.visited }

/-- Refuses the token at the position. -/
def fail {α : Type} (tokens : Tokens) (expected : List Expected) : Descent α := do
  let t ← tokens.current
  let found := if t.kind = .endMarker then none else some t.text
  throw (.refused (.unexpected t.span.start expected found))

/-- Passes a token of one kind. -/
def expect (tokens : Tokens) (k : Kind) : Descent Token := do
  let t ← tokens.current
  if t.kind = k then
    tokens.advance
    return t
  else tokens.fail [.token k]

/-- The literal of the token at the position, which is not passed. -/
def literal (tokens : Tokens) : Descent Literal := do
  let t ← tokens.current
  match t.kind with
  | .number =>
    match Literal.ofNumber? t.text with
    | some l => return l
    | none => throw (.refused (.lexical (.invalidNumber t.text t.span.start)))
  | .string => if Text.hasInside t.text then return .ofString t.text else throw .crashed
  | .trueWord => return .bool true
  | .falseWord => return .bool false
  | .noneWord => return .none
  | .leftBrace => tokens.fail [.noBraces]
  | _ => tokens.fail Expected.operand

mutual

/-- An expression of a tier. -/
def expression (tokens : Tokens) (l : Tier) : Descent Node :=
  match l with
  | .power => tokens |>.power
  | .unary => tokens |>.unary
  | .suffixed => tokens |>.suffixed
  | .primary => tokens |>.primary
  | l => tokens |>.chain l
partial_fixpoint

/-- A chain of operators that associate to the left. -/
def chain (tokens : Tokens) (l : Tier) : Descent Node := do
  let start ← position
  let left ← tokens |>.expression l.tighter
  let e ← tokens |>.operators l left
  arrive start e
partial_fixpoint

/-- The loop of a chain: operators of the tier behind `left`, each with its right operand. -/
def operators (tokens : Tokens) (l : Tier) (left : Node) : Descent Node := do
  let start ← position
  match l.operator? (← tokens.current).kind with
  | some op =>
    tokens.advance
    let right ← tokens |>.expression l.tighter
    note start
    tokens |>.operators l (.binary op left right)
  | none => return left
partial_fixpoint

/-- A power, or the unary expression that would be its base. -/
def power (tokens : Tokens) : Descent Node := do
  let start ← position
  let base ← tokens |>.unary
  if (← tokens.current).kind = .doubleStar then
    tokens.advance
    let exponent ← tokens |>.power
    arrive start (.binary .pow base exponent)
  else arrive start base
partial_fixpoint

/-- An expression behind any number of signs. -/
def unary (tokens : Tokens) : Descent Node := do
  let start ← position
  match UnaryOp.ofKind? (← tokens.current).kind with
  | some op =>
    tokens.advance
    let e ← tokens |>.unary
    arrive start (.unary op e)
  | none =>
    let e ← tokens |>.suffixed
    arrive start e
partial_fixpoint

/-- An operand with its members, calls and indices. -/
def suffixed (tokens : Tokens) : Descent Node := do
  let start ← position
  let e ← tokens |>.primary
  let e ← tokens |>.suffixes e
  arrive start e
partial_fixpoint

/-- The loop of members, calls and indices behind `e`. -/
def suffixes (tokens : Tokens) (e : Node) : Descent Node := do
  let start ← position
  match (← tokens.current).kind with
  | .dot =>
    tokens.advance
    let name ← tokens.expect .name
    note start
    tokens |>.suffixes (.member e name.text)
  | .leftParen =>
    tokens.advance
    let as ← tokens |>.elements .rightParen
    note start
    tokens |>.suffixes (.call e as)
  | .leftBracket =>
    tokens.advance
    let is ← tokens |>.indices
    note start
    tokens |>.suffixes (.index e is)
  | _ => return e
partial_fixpoint

/-- An operand. -/
def primary (tokens : Tokens) : Descent Node := do
  let start ← position
  let t ← tokens.current
  match t.kind with
  | .name =>
    tokens.advance
    arrive start (.name t.text)
  | .leftParen =>
    tokens.advance
    let e ← tokens |>.expression .boolean
    let _ ← tokens.expect .rightParen
    arrive start (.paren e)
  | .leftBracket =>
    tokens.advance
    let es ← tokens |>.elements .rightBracket
    arrive start (.list es)
  | _ =>
    let l ← tokens.literal
    tokens.advance
    arrive start (.literal l)
partial_fixpoint

/-- The elements of a call or a list, up to the token that closes it. -/
def elements (tokens : Tokens) (close : Kind) : Descent (List Node) := do
  let start ← position
  if (← tokens.current).kind = close then
    tokens.advance
    arrive start []
  else
    let es ← tokens |>.moreElements close []
    arrive start es
partial_fixpoint

/-- The loop of elements behind `es`. -/
def moreElements (tokens : Tokens) (close : Kind) (es : List Node) : Descent (List Node) := do
  let start ← position
  let e ← tokens |>.expression .boolean
  let k := (← tokens.current).kind
  if k = .comma then
    tokens.advance
    note start
    tokens |>.moreElements close (es ++ [e])
  else if k = close then
    tokens.advance
    note start
    return es ++ [e]
  else tokens.fail [.token .comma, .token close]
partial_fixpoint

/-- The items of an index, up to the bracket that closes it. -/
def indices (tokens : Tokens) : Descent (List IndexItem) := do
  let start ← position
  let is ← tokens |>.moreIndices []
  arrive start is
partial_fixpoint

/-- The loop of items behind `is`. -/
def moreIndices (tokens : Tokens) (is : List IndexItem) : Descent (List IndexItem) := do
  let start ← position
  let i ← tokens |>.item
  let k := (← tokens.current).kind
  if k = .comma then
    tokens.advance
    note start
    tokens |>.moreIndices (is ++ [i])
  else if k = .rightBracket then
    tokens.advance
    note start
    return is ++ [i]
  else tokens.fail [.token .comma, .token .rightBracket]
partial_fixpoint

/-- An item of an index. -/
def item (tokens : Tokens) : Descent IndexItem := do
  let start ← position
  if (← tokens.current).kind = .ellipsis then
    tokens.advance
    arrive start .ellipsis
  else
    let a ← tokens |>.bound [.colon]
    if (← tokens.current).kind = .colon then
      tokens.advance
      tokens |>.slice start a
    else
      match a with
      | some e => arrive start (.expr e)
      | none => tokens.fail Expected.operand
partial_fixpoint

/-- The rest of an item that began at `start`, behind the first bound of a slice and a colon. -/
def slice (tokens : Tokens) (start : Nat) (a : Option Node) : Descent IndexItem := do
  let b ← tokens |>.bound [.colon, .comma, .rightBracket]
  if (← tokens.current).kind = .colon then
    tokens.advance
    let c ← tokens |>.bound [.colon, .comma, .rightBracket]
    arrive start (.slice a b c true)
  else if a.isNone && b.isNone then arrive start .full
  else arrive start (.slice a b none false)
partial_fixpoint

/-- A bound of a slice, which is absent in front of a token of one of the kinds `next`. -/
def bound (tokens : Tokens) (next : List Kind) : Descent (Option Node) := do
  let start ← position
  if (← tokens.current).kind ∈ next then return none
  else
    let e ← tokens |>.expression .boolean
    arrive start (some e)
partial_fixpoint

end

/-- An expression, or an assignment. -/
def assignment (tokens : Tokens) : Descent Node := do
  let target ← tokens.expression .boolean
  match AssignOp.ofKind? (← tokens.current).kind with
  | none => return target
  | some op =>
    if target.isAssignable then
      tokens.advance
      let value ← tokens.expression .boolean
      return .assign op target value
    else tokens.fail [.assignable]

/-- A line, if it holds something to analyse. -/
def line (tokens : Tokens) : Descent (Option Node) := do
  let t ← tokens.current
  if t.kind = .endMarker ∨ t.kind = .name ∧ TokenLine.statementWords.contains t.text then
    return none
  else
    let e ← tokens.assignment
    if (← tokens.current).kind = .endMarker then return some e
    else tokens.fail [.endOfLine]

end Tokens

/-- A part of a run from a trail on. -/
def go {α : Type} (m : Descent α) (s : Trail) : Option (Except Halt α × Trail) :=
  (ExceptT.run m).run s

/-- The run over a list of tokens. -/
def run (ts : List Token) : Option (Except Halt (Option Node) × Trail) :=
  go (Tokens.line (ended ts)) ⟨0, [0], []⟩

/-- What the run over a list of tokens ends with. -/
def result (ts : List Token) : Option (Except Halt (Option Node)) :=
  (run ts).map Prod.fst

end Descent

end ShapeFault
