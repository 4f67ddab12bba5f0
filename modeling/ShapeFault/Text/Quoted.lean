/-!
# Quoted text

The text between two quotes may hide characters behind a backslash. `unescape` resolves the line
break, the tabulator, the backslash and the two quotes; a backslash before any other character, or
at the end, stands for itself.
-/

namespace ShapeFault.Text

/-- The character that a backslash and `c` stand for, if they stand for one. -/
def escaped? (c : Char) : Option Char :=
  if c = 'n' then some '\n'
  else if c = 't' then some '\t'
  else if c = '\\' ∨ c = '\'' ∨ c = '"' then some c
  else none

/-- A text with its escapes resolved. -/
def unescape : List Char → List Char
  | [] => []
  | ['\\'] => ['\\']
  | '\\' :: c :: cs =>
    match escaped? c with
    | some d => d :: unescape cs
    | none => '\\' :: c :: unescape cs
  | c :: cs => c :: unescape cs

/-- The text between the first and the last character, with its escapes resolved. -/
def unquote (s : String) : String :=
  String.ofList (unescape (s.toList.drop 1).dropLast)

end ShapeFault.Text
