/-!
# Texts within texts
-/

namespace ShapeFault.Text

/-- Whether `pattern` stands somewhere in a text, without gaps. -/
def occurs (pattern : List Char) : List Char → Bool
  | [] => pattern.isEmpty
  | c :: cs => pattern.isPrefixOf (c :: cs) || occurs pattern cs

end ShapeFault.Text
