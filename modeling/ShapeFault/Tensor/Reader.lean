import ShapeFault.Decimal.Reader
import ShapeFault.Tensor.Value
import ShapeFault.Text.Blank

/-!
# Reading values

The values that can be bound to names from outside are written as texts: a tuple of sizes stands for
a tensor of that shape, other texts for `True`, `False`, `None`, an integer or a float, tried in
this order. Blanks around the text, and around the sizes of a tuple, do not matter, nor do empty
places between its commas.
-/

namespace ShapeFault

namespace Text

/-- The pieces of a text between the occurrences of a character. -/
def splitAt (separator : Char) : List Char → List (List Char)
  | [] => [[]]
  | c :: cs =>
    if c = separator then [] :: splitAt separator cs
    else
      match splitAt separator cs with
      | piece :: pieces => (c :: piece) :: pieces
      | [] => [[c]]

/-- What stands between an opening parenthesis at the front and a closing one at the end. -/
def parenthesized? : List Char → Option (List Char)
  | '(' :: cs => if cs.getLast? = some ')' then some cs.dropLast else none
  | _ => none

end Text

namespace Value

/-- The sizes between the parentheses of a tuple. -/
def sizes? (cs : List Char) : Option Shape :=
  (((Text.splitAt ',' cs).map Text.trimChars).filter (· ≠ [])).mapM Decimal.size?

/-- The value that a text without blanks around it stands for. -/
def ofChars? (cs : List Char) : Option Value :=
  match Text.parenthesized? cs with
  | some inner => (sizes? inner).map tensor
  | Option.none =>
    if cs = "True".toList then some (bool true)
    else if cs = "False".toList then some (bool false)
    else if cs = "None".toList then some none
    else
      match Decimal.int64? cs with
      | some n => some (int n)
      | Option.none => (Decimal.float? cs).map float

/-- The value that a text stands for. -/
def read? (s : String) : Option Value :=
  ofChars? (Text.trimChars s.toList)

/-- What is said of a text that stands for no value. -/
def unreadable (s : String) : String :=
  "cannot read `" ++ s ++ "` as a value"

end Value

end ShapeFault
