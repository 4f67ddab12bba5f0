import ShapeFault.Expr.Operator

/-!
# Syntax trees

The tree of one line. A literal keeps the text that it was written with, so that a tree can be
written out again exactly; a parenthesised expression is a node of its own for the same reason.
-/

namespace ShapeFault

/-- A literal with its text and its value. -/
inductive Literal where
  | int (text : String) (value : Int)
  | float (text : String) (value : Float)
  | str (text value : String)
  | bool (value : Bool)
  | none

mutual

/-- A syntax tree. -/
inductive Node where
  | name (id : String)
  | literal (lit : Literal)
  | unary (op : UnaryOp) (operand : Node)
  | binary (op : BinaryOp) (left right : Node)
  | assign (op : AssignOp) (target value : Node)
  | member (object : Node) (id : String)
  | call (callee : Node) (args : List Node)
  | index (array : Node) (items : List IndexItem)
  | list (elems : List Node)
  | paren (inner : Node)

/-- One of the items between the brackets of an index. -/
inductive IndexItem where
  | expr (node : Node)
  /-- bounds around one or two colons; `stepped` says that the second one is written -/
  | slice (start stop step : Option Node) (stepped : Bool)
  /-- a colon on its own, for a whole axis -/
  | full
  | ellipsis

end

namespace Literal

/-- The text that the literal is written with. -/
def text : Literal → String
  | int t _ | float t _ | str t _ => t
  | bool true => "True"
  | bool false => "False"
  | none => "None"

/-- Equal texts and equal values, two float values being compared as numbers. -/
def same : Literal → Literal → Bool
  | int t v, int t' v' => t == t' && v == v'
  | float t v, float t' v' => t == t' && v == v'
  | str t v, str t' v' => t == t' && v == v'
  | bool v, bool v' => v == v'
  | none, none => true
  | _, _ => false

end Literal

mutual

/-- Whether two trees have the same form and the same literals. This differs from equality on the
values of floats only: a value that is not a number differs from itself, and the two zeros are the
same. -/
def Node.same : Node → Node → Bool
  | .name s, .name s' => s == s'
  | .literal l, .literal l' => l.same l'
  | .unary op a, .unary op' a' => op == op' && a.same a'
  | .binary op a b, .binary op' a' b' => op == op' && a.same a' && b.same b'
  | .assign op a b, .assign op' a' b' => op == op' && a.same a' && b.same b'
  | .member a s, .member a' s' => a.same a' && s == s'
  | .call f as, .call f' as' => f.same f' && Node.sameList as as'
  | .index a is, .index a' is' => a.same a' && IndexItem.sameList is is'
  | .list as, .list as' => Node.sameList as as'
  | .paren a, .paren a' => a.same a'
  | _, _ => false

/-- `Node.same` at every position of two lists of one length. -/
def Node.sameList : List Node → List Node → Bool
  | [], [] => true
  | a :: as, b :: bs => a.same b && Node.sameList as bs
  | _, _ => false

/-- `Node.same` for bounds of slices. -/
def Node.sameBound : Option Node → Option Node → Bool
  | none, none => true
  | some a, some b => a.same b
  | _, _ => false

/-- `Node.same` for items of an index. -/
def IndexItem.same : IndexItem → IndexItem → Bool
  | .expr a, .expr a' => a.same a'
  | .slice a b c s, .slice a' b' c' s' =>
    Node.sameBound a a' && Node.sameBound b b' && Node.sameBound c c' && s == s'
  | .full, .full => true
  | .ellipsis, .ellipsis => true
  | _, _ => false

/-- `IndexItem.same` at every position of two lists of one length. -/
def IndexItem.sameList : List IndexItem → List IndexItem → Bool
  | [], [] => true
  | a :: as, b :: bs => a.same b && IndexItem.sameList as bs
  | _, _ => false

end

namespace Node

/-- The nodes that can stand to the left of an assignment. -/
def isAssignable : Node → Bool
  | name _ | member _ _ | index _ _ => true
  | _ => false

end Node

end ShapeFault
