import ShapeFault.Expr.Source

/-!
# Outlines

The outline of a tree names every node and its parts, as in
`BinaryOp(op=<PLUS:+>, lhs=a, rhs=b)`. Atoms are written as in the source.
-/

namespace ShapeFault

/-- An operator in an outline: the label of its kind and its spelling. -/
def Token.Kind.outline (k : Token.Kind) : String :=
  "<" ++ k.label ++ ":" ++ k.spelling ++ ">"

mutual

/-- The outline of a tree. -/
def Node.outline : Node → String
  | .name s => s
  | .literal l => l.text
  | .unary op e => "UnaryOp(op=" ++ op.kind.outline ++ ", opnd=" ++ e.outline ++ ")"
  | .binary op a b =>
    "BinaryOp(op=" ++ op.kind.outline ++ ", lhs=" ++ a.outline ++ ", rhs=" ++ b.outline ++ ")"
  | .assign op t v =>
    "Assign(op=" ++ op.kind.outline ++ ", lhs=" ++ t.outline ++ ", rhs=" ++ v.outline ++ ")"
  | .member e s => "Member(op=" ++ Token.Kind.dot.outline ++ ", obj=" ++ e.outline ++
      ", member=" ++ s ++ ")"
  | .call f as =>
    "Call(func=" ++ f.outline ++ ", args=[" ++ commaSeparated (Node.outlines as) ++ "])"
  | .index a is =>
    "Index(arr=" ++ a.outline ++ ", index=[" ++ commaSeparated (IndexItem.outlines is) ++ "])"
  | .list es => "ListLiteral(elems=[" ++ commaSeparated (Node.outlines es) ++ "])"
  | .paren e => "SubExpr(e=" ++ e.outline ++ ")"

/-- The outline of each tree of a list. -/
def Node.outlines : List Node → List String
  | [] => []
  | e :: es => e.outline :: Node.outlines es

/-- The outline of a bound of a slice; an absent bound is written as nothing. -/
def Node.boundOutline : Option Node → String
  | none => ""
  | some e => e.outline

/-- The outline of an item of an index. -/
def IndexItem.outline : IndexItem → String
  | .expr e => e.outline
  | .slice a b c stepped =>
    Node.boundOutline a ++ ":" ++ Node.boundOutline b ++
      (if stepped then ":" ++ Node.boundOutline c else "")
  | .full => ":"
  | .ellipsis => "..."

/-- The outline of each item of a list. -/
def IndexItem.outlines : List IndexItem → List String
  | [] => []
  | i :: is => i.outline :: IndexItem.outlines is

end

/-! ### The outline of each form of node

The texts are closed, and unfolding `outline` would compute with them; each equation holds by the
recursion alone.
-/

namespace Node

variable {e f : Node} {es : List Node} {is : List IndexItem} {s : String}

theorem outline_unary {op : UnaryOp} : (unary op e).outline =
    "UnaryOp(op=" ++ op.kind.outline ++ ", opnd=" ++ e.outline ++ ")" :=
  rfl

theorem outline_binary {op : BinaryOp} : (binary op e f).outline =
    "BinaryOp(op=" ++ op.kind.outline ++ ", lhs=" ++ e.outline ++ ", rhs=" ++ f.outline ++ ")" :=
  rfl

theorem outline_assign {op : AssignOp} : (assign op e f).outline =
    "Assign(op=" ++ op.kind.outline ++ ", lhs=" ++ e.outline ++ ", rhs=" ++ f.outline ++ ")" :=
  rfl

theorem outline_member : (member e s).outline = "Member(op=" ++ Token.Kind.dot.outline ++
    ", obj=" ++ e.outline ++ ", member=" ++ s ++ ")" :=
  rfl

theorem outline_call : (call e es).outline =
    "Call(func=" ++ e.outline ++ ", args=[" ++ commaSeparated (Node.outlines es) ++ "])" :=
  rfl

theorem outline_index : (index e is).outline =
    "Index(arr=" ++ e.outline ++ ", index=[" ++ commaSeparated (IndexItem.outlines is) ++ "])" :=
  rfl

theorem outline_list :
    (list es).outline = "ListLiteral(elems=[" ++ commaSeparated (Node.outlines es) ++ "])" :=
  rfl

theorem outline_paren : (paren e).outline = "SubExpr(e=" ++ e.outline ++ ")" :=
  rfl

end Node

theorem IndexItem.outline_slice {a b c : Option Node} {stepped : Bool} :
    (slice a b c stepped).outline = Node.boundOutline a ++ ":" ++ Node.boundOutline b ++
      (if stepped then ":" ++ Node.boundOutline c else "") :=
  rfl

theorem Node.outlines_eq_map (es : List Node) : Node.outlines es = es.map Node.outline := by
  induction es with
  | nil => rfl
  | cons e es ih => simp [Node.outlines, ih]

theorem IndexItem.outlines_eq_map (is : List IndexItem) :
    IndexItem.outlines is = is.map IndexItem.outline := by
  induction is with
  | nil => rfl
  | cons i is ih => simp [IndexItem.outlines, ih]

end ShapeFault
