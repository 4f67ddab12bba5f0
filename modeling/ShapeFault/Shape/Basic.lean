import ShapeFault.Word

/-!
# Shapes

The shape of a tensor is the list of its sizes, outermost axis first. Sizes and counts of elements
are held in words of 64 bits: a count that does not fit is absent.
-/

namespace ShapeFault

/-- The sizes of a tensor, outermost first. -/
abbrev Shape :=
  List Nat

/-- The product of sizes, taken from left to right, if every step of it fits in a word. -/
def checkedProduct (sizes : List Nat) : Option Nat :=
  sizes.foldlM (fun acc n => if acc * n < Word.count then some (acc * n) else none) 1

namespace Shape

/-- The number of axes. -/
def rank (s : Shape) : Nat :=
  s.length

/-- The number of elements, if it fits in a word at every step. -/
def elementCount (s : Shape) : Option Nat :=
  checkedProduct s

/-- A shape as a tuple of sizes; that of one axis has a comma at its end. -/
def text : Shape → String
  | [n] => "(" ++ n.repr ++ ",)"
  | s => "(" ++ String.intercalate ", " (s.map Nat.repr) ++ ")"

end Shape

end ShapeFault
