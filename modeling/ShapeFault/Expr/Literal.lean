import ShapeFault.Decimal.Reader
import ShapeFault.Expr.Basic
import ShapeFault.Text.Quoted

/-!
# Reading literals

The literal that the text of a number or a string stands for.
-/

namespace ShapeFault.Literal

/-- Whether a number is written as a float: with a point or an exponent. -/
def isFloatText (cs : List Char) : Bool :=
  cs.any fun c => c == '.' || c == 'e' || c == 'E'

/-- The literal of a number, if its value can be held. -/
def ofNumber? (text : String) : Option Literal :=
  let cs := text.toList
  if isFloatText cs then (Decimal.float? cs).map (float text)
  else (Decimal.int64? cs).map (int text)

/-- The literal of a string in its quotes. -/
def ofString (text : String) : Literal :=
  str text (Text.unquote text)

end ShapeFault.Literal
