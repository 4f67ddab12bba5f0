import ShapeFault.Expr.Literal
import ShapeFault.Token.Basic

/-!
# Reading trees token by token

A tree is read from left to right without going back. The part that has been read is a `Reading`:
the constructs that are still open, innermost first, and what may come next. `Reading.step` takes
one token, and `Reading.finish` closes everything at the end of the line.

Operators wait in open constructs until the token after their right operand is known: `closeTighter`
applies those that bind tightly enough.
-/

namespace ShapeFault

open Token (Kind)

/-- What would have been accepted in place of a token. -/
inductive Expected where
  | token (kind : Kind)
  /-- an operand other than the braces that stand here -/
  | noBraces
  /-- something that can be assigned to, in front of this assignment -/
  | assignable
  | endOfLine
  deriving DecidableEq, Repr

namespace Expected

def text : Expected → String
  | token k => k.label
  | noBraces => "an expression (dict and set literals are not supported)"
  | assignable => "assignable target before assignment"
  | endOfLine => "end of line"

/-- The tokens that can start an operand, signs apart. -/
def operand : List Expected :=
  [token .name, token .number, token .string, token .leftParen, token .leftBracket]

end Expected

/-- The part of an index item that is being read, with the bounds read before it. -/
inductive ItemPart where
  /-- the item is at its start -/
  | first
  /-- one colon has been read -/
  | stop (start : Option Node)
  /-- two colons have been read -/
  | step (start stop : Option Node)

namespace ItemPart

/-- The item that is complete once the part in hand has been read; `none` is an absent bound. No
item starts without a bound or a colon, so the first part has to be there. -/
def complete : ItemPart → Option Node → Option IndexItem
  | first, e => e.map .expr
  | stop none, none => some .full
  | stop a, b => some (.slice a b none false)
  | step a b, c => some (.slice a b c true)

/-- The part behind one more colon, if there can be one. -/
def next : ItemPart → Option Node → Option ItemPart
  | first, e => some (.stop e)
  | stop a, b => some (.step a b)
  | step _ _, _ => none

end ItemPart

/-- A construct that is open, with the parts of it that have been read. -/
inductive Construct where
  | unary (op : UnaryOp)
  | binary (op : BinaryOp) (left : Node)
  | assign (op : AssignOp) (target : Node)
  | paren
  | call (callee : Node) (args : List Node)
  | list (elems : List Node)
  | index (array : Node) (items : List IndexItem) (part : ItemPart)

namespace Construct

/-- What can follow a complete expression in a construct, operators apart. The colon of a slice is
not mentioned. -/
def closers : Construct → List Expected
  | paren => [.token .rightParen]
  | call _ _ => [.token .comma, .token .rightParen]
  | list _ | index _ _ _ => [.token .comma, .token .rightBracket]
  | unary _ | binary _ _ | assign _ _ => [.endOfLine]

end Construct

/-- What may come next. -/
inductive Focus where
  /-- an operand -/
  | operand
  /-- more of the expression that ends with `node`, or what follows it -/
  | operator (node : Node)
  /-- the name of a member -/
  | member (object : Node)
  /-- what follows a complete item of an index -/
  | separator (item : IndexItem)

/-- The part of a line that has been read. -/
structure Reading where
  /-- the open constructs, innermost first -/
  constructs : List Construct
  focus : Focus

/-- Why a line is refused at a token. -/
inductive Refusal where
  /-- none of these stands there -/
  | expected (alternatives : List Expected)
  /-- a number stands there whose value cannot be held -/
  | badNumber
  deriving DecidableEq, Repr

/-- Applies the open operators that bind at least as tightly as `binding` to the node at hand. -/
def closeTighter (binding : Nat) : List Construct → Node → List Construct × Node
  | .unary op :: cs, e => closeTighter binding cs (.unary op e)
  | .binary op a :: cs, e =>
    if binding ≤ op.binding then closeTighter binding cs (.binary op a e)
    else (.binary op a :: cs, e)
  | cs, e => (cs, e)

namespace Reading

/-- Nothing has been read. -/
def start : Reading :=
  ⟨[], .operand⟩

/-- Goes on behind a complete item of an index. -/
def afterItem (array : Node) (items : List IndexItem) (cs : List Construct) (item : IndexItem) :
    Kind → Except Refusal Reading
  | .comma => .ok ⟨.index array (items ++ [item]) .first :: cs, .operand⟩
  | .rightBracket => .ok ⟨cs, .operator (.index array (items ++ [item]))⟩
  | _ => .error (.expected (Construct.closers (.index array items .first)))

/-- Goes on in an index, where the part at hand has been read; `none` is an absent bound. -/
def afterPart (array : Node) (items : List IndexItem) (part : ItemPart) (cs : List Construct)
    (e : Option Node) (kind : Kind) : Except Refusal Reading :=
  match part.next e, part.complete e, kind with
  | some next, _, .colon => .ok ⟨.index array items next :: cs, .operand⟩
  | _, some item, kind => afterItem array items cs item kind
  | _, none, _ => .error (.expected Expected.operand)

/-- Goes on where an operand is due and the token cannot start one: some constructs may end here or
go on without it. -/
def withoutOperand (cs : List Construct) (kind : Kind) : Except Refusal Reading :=
  match cs, kind with
  | .call f [] :: cs, .rightParen => .ok ⟨cs, .operator (.call f [])⟩
  | .list [] :: cs, .rightBracket => .ok ⟨cs, .operator (.list [])⟩
  | .index a is .first :: cs, .ellipsis => .ok ⟨.index a is .first :: cs, .separator .ellipsis⟩
  | .index a is .first :: cs, .colon => afterPart a is .first cs none .colon
  | .index a is (.stop b) :: cs, .colon => afterPart a is (.stop b) cs none .colon
  | .index a is (.stop b) :: cs, .comma => afterPart a is (.stop b) cs none .comma
  | .index a is (.stop b) :: cs, .rightBracket => afterPart a is (.stop b) cs none .rightBracket
  | .index a is (.step b c) :: cs, .colon => afterPart a is (.step b c) cs none .colon
  | .index a is (.step b c) :: cs, .comma => afterPart a is (.step b c) cs none .comma
  | .index a is (.step b c) :: cs, .rightBracket =>
    afterPart a is (.step b c) cs none .rightBracket
  | _, .leftBrace => .error (.expected [.noBraces])
  | _, _ => .error (.expected Expected.operand)

/-- Takes a token where an operand is due. -/
def stepOperand (cs : List Construct) (t : Token) : Except Refusal Reading :=
  match t.kind with
  | .name => .ok ⟨cs, .operator (.name t.text)⟩
  | .number =>
    match Literal.ofNumber? t.text with
    | some l => .ok ⟨cs, .operator (.literal l)⟩
    | none => .error .badNumber
  | .string => .ok ⟨cs, .operator (.literal (.ofString t.text))⟩
  | .trueWord => .ok ⟨cs, .operator (.literal (.bool true))⟩
  | .falseWord => .ok ⟨cs, .operator (.literal (.bool false))⟩
  | .noneWord => .ok ⟨cs, .operator (.literal .none)⟩
  | .minus => .ok ⟨.unary .neg :: cs, .operand⟩
  | .notWord => .ok ⟨.unary .not :: cs, .operand⟩
  | .leftParen => .ok ⟨.paren :: cs, .operand⟩
  | .leftBracket => .ok ⟨.list [] :: cs, .operand⟩
  | kind => withoutOperand cs kind

/-- Goes on behind an expression that no operator extends, in the innermost construct that is not an
operator. -/
def afterExpression (cs : List Construct) (e : Node) (kind : Kind) : Except Refusal Reading :=
  match cs, kind with
  | .paren :: cs, .rightParen => .ok ⟨cs, .operator (.paren e)⟩
  | .call f as :: cs, .comma => .ok ⟨.call f (as ++ [e]) :: cs, .operand⟩
  | .call f as :: cs, .rightParen => .ok ⟨cs, .operator (.call f (as ++ [e]))⟩
  | .list as :: cs, .comma => .ok ⟨.list (as ++ [e]) :: cs, .operand⟩
  | .list as :: cs, .rightBracket => .ok ⟨cs, .operator (.list (as ++ [e]))⟩
  | .index a is part :: cs, kind => afterPart a is part cs (some e) kind
  | [], kind =>
    match AssignOp.ofKind? kind with
    | some op =>
      if e.isAssignable then .ok ⟨[.assign op e], .operand⟩
      else .error (.expected [.assignable])
    | none => .error (.expected [.endOfLine])
  | c :: _, _ => .error (.expected c.closers)

/-- Takes a token behind a node that it may extend. -/
def stepOperator (cs : List Construct) (e : Node) (t : Token) : Except Refusal Reading :=
  match t.kind with
  | .dot => .ok ⟨cs, .member e⟩
  | .leftParen => .ok ⟨.call e [] :: cs, .operand⟩
  | .leftBracket => .ok ⟨.index e [] .first :: cs, .operand⟩
  | kind =>
    match BinaryOp.ofKind? kind with
    | some op =>
      let closed := closeTighter op.closes cs e
      .ok ⟨.binary op closed.2 :: closed.1, .operand⟩
    | none =>
      let closed := closeTighter 0 cs e
      afterExpression closed.1 closed.2 kind

/-- Takes one token. -/
def step (r : Reading) (t : Token) : Except Refusal Reading :=
  match r.focus with
  | .operand => stepOperand r.constructs t
  | .operator e => stepOperator r.constructs e t
  | .member e =>
    if t.kind = .name then .ok ⟨r.constructs, .operator (.member e t.text)⟩
    else .error (.expected [.token .name])
  | .separator item =>
    match r.constructs with
    | .index a is _ :: cs => afterItem a is cs item t.kind
    | _ => .error (.expected [.token .comma, .token .rightBracket])

/-- The tree of a line that ends here. -/
def finish (r : Reading) : Except Refusal Node :=
  match r.focus with
  | .operand => .error (.expected Expected.operand)
  | .operator e =>
    match closeTighter 0 r.constructs e with
    | ([], e) => .ok e
    | ([.assign op t], e) => .ok (.assign op t e)
    | (c :: _, _) => .error (.expected c.closers)
  | .member _ => .error (.expected [.token .name])
  | .separator _ => .error (.expected [.token .comma, .token .rightBracket])

end Reading

end ShapeFault
