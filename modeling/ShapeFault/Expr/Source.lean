import ShapeFault.Expr.Basic

/-!
# Trees as source text

`Node.source` writes a tree as a line of code: one space around binary operators, `", "` between the
members of a list, and nothing else.
-/

namespace ShapeFault

/-- Texts with a comma and a space between them. -/
def commaSeparated (parts : List String) : String :=
  String.intercalate ", " parts

/-- What a unary operator writes in front of its operand. -/
def UnaryOp.opening : UnaryOp → String
  | neg => "-"
  | not => "not "

mutual

/-- A tree as a line of code. -/
def Node.source : Node → String
  | .name s => s
  | .literal l => l.text
  | .unary op e => op.opening ++ e.source
  | .binary op a b => a.source ++ " " ++ op.symbol ++ " " ++ b.source
  | .assign op t v => t.source ++ " " ++ op.symbol ++ " " ++ v.source
  | .member e s => e.source ++ "." ++ s
  | .call f as => f.source ++ "(" ++ commaSeparated (Node.sources as) ++ ")"
  | .index a is => a.source ++ "[" ++ commaSeparated (IndexItem.sources is) ++ "]"
  | .list es => "[" ++ commaSeparated (Node.sources es) ++ "]"
  | .paren e => "(" ++ e.source ++ ")"

/-- Each tree of a list as code. -/
def Node.sources : List Node → List String
  | [] => []
  | e :: es => e.source :: Node.sources es

/-- A bound of a slice as code; an absent bound is written as nothing. -/
def Node.boundSource : Option Node → String
  | none => ""
  | some e => e.source

/-- An item of an index as code. -/
def IndexItem.source : IndexItem → String
  | .expr e => e.source
  | .slice a b c stepped =>
    Node.boundSource a ++ ":" ++ Node.boundSource b ++
      (if stepped then ":" ++ Node.boundSource c else "")
  | .full => ":"
  | .ellipsis => "..."

/-- Each item of a list as code. -/
def IndexItem.sources : List IndexItem → List String
  | [] => []
  | i :: is => i.source :: IndexItem.sources is

end

theorem Node.sources_eq_map (es : List Node) : Node.sources es = es.map Node.source := by
  induction es with
  | nil => rfl
  | cons e es ih => simp [Node.sources, ih]

theorem IndexItem.sources_eq_map (is : List IndexItem) :
    IndexItem.sources is = is.map IndexItem.source := by
  induction is with
  | nil => rfl
  | cons i is ih => simp [IndexItem.sources, ih]

end ShapeFault
