import ShapeFault.Eval.Run
import ShapeFault.Shape.Basic

/-!
# Explanations

An explanation names a failed node and those of its operands that have a shape with at least one
axis, each with its place, its own source text and its shape. For a call these are the arguments,
for an index the array and the items that are plain values.
-/

namespace ShapeFault

namespace Explain

/-- An operand with its place, if its shape has an axis. -/
def describe? (place : String) (node : String) (shape : Option Shape) : Option String :=
  match shape with
  | some (n :: s) => some (place ++ " " ++ node ++ " w/shape " ++ Shape.text (n :: s))
  | _ => none

/-- The descriptions of operands that are counted from `position` on. Items that are not plain
values have no shape here. -/
def describeAll (place : String) : (position : Nat) → List (String × Option Shape) → List String
  | _, [] => []
  | position, (node, shape) :: rest =>
    (describe? (place ++ " #" ++ position.repr) node shape).toList ++
      describeAll place (position + 1) rest

/-- The descriptions after a joining word, if there are any. -/
def clause (word separator : String) : List String → String
  | [] => ""
  | ds => " " ++ word ++ " " ++ String.intercalate separator ds

/-- The explanation made of two groups of descriptions, of which at least one must not be empty. -/
def compose (node : Node) (subjects : List String) (separator : String) (companions : List String) :
    Option String :=
  if subjects = [] ∧ companions = [] then none
  else some ("Cause: " ++ node.source ++ clause "on" separator subjects ++
    clause "with" ", " companions)

/-- The value of an item of an index that is a plain value. -/
def plain? {V : Type} : IndexValue V → Option V
  | .value v => some v
  | _ => none

end Explain

open Explain in
/-- The explanation of a failure of `node` with these operands, where `shapeOf` tells the shapes of
values. There is none if no operand has a shape with an axis, or if node and operands do not belong
together. -/
def explainOperands {V : Type} (shapeOf : V → Option Shape) (node : Node) (operands : Operands V) :
    Option String :=
  match node, operands with
  | .unary _ e, .unary v => compose node (describe? "operand" e.source (shapeOf v)).toList "" []
  | .binary _ a b, .binary v w =>
    compose node ((describe? "left operand" a.source (shapeOf v)).toList ++
      (describe? "right operand" b.source (shapeOf w)).toList) " and " []
  | .call _ as, .call _ vs =>
    if as.length = vs.length then
      compose node [] "" (describeAll "argument" 0
        ((as.map Node.source).zip (vs.map shapeOf)))
    else none
  | .index a is, .index v vs =>
    if is.length = vs.length then
      compose node (describe? "array" a.source (shapeOf v)).toList ""
        (describeAll "index" 0
          ((is.map IndexItem.source).zip (vs.map fun i => (plain? i).bind shapeOf)))
    else none
  | _, _ => none

/-- The explanation of a trap. -/
def Trap.explain {V E : Type} (shapeOf : V → Option Shape) (t : Trap V E) : Option String :=
  explainOperands shapeOf t.node t.operands

end ShapeFault
