import ShapeFault.Document.Gap
import ShapeFault.Document.Layout

/-!
# Scanning documents

An automaton that turns the characters of a YAML document into marks. It takes one character at a
time and knows those that follow. What it is in the middle of is its `Mode`; the marks and the
indentation are in its `Layout`. `marks?` runs it on a whole document.

Of the language, the scalars with a bar or an angle bracket in front of them, anchors, tags and
directives are not read: documents that use them are refused.
-/

namespace ShapeFault.Document

/-- What a scan is in the middle of. Texts are held with their last character first. -/
inductive Mode where
  | between
  | comment
  /-- a sign of which there are `count` characters to come -/
  | sign (count : Nat)
  /-- a plain text; its further lines start no further left than `indent` -/
  | plain (indent : Nat) (text : List Char) (gap : Gap)
  | single (text : List Char) (gap : Gap)
  /-- behind a single quote, which ends the text unless another one follows -/
  | singleQuote (text : List Char)
  | double (text : List Char) (gap : Gap)
  /-- behind a backslash -/
  | escape (text : List Char)
  /-- in a number of a character, of which there are `digits` digits to come -/
  | code (text : List Char) (digits value : Nat)
  deriving DecidableEq, Repr

/-- The scan of a document up to some place. -/
structure Scan where
  place : Place
  layout : Layout
  mode : Mode
  deriving DecidableEq, Repr

namespace Scan

/-- Nothing has been read. -/
def start : Scan :=
  ⟨.start, .start, .between⟩

/-- The scan in another mode. -/
def enter (s : Scan) (m : Mode) : Scan :=
  { s with mode := m }

/-- The scan with another layout, between two marks. -/
def withLayout (s : Scan) (l : Layout) : Scan :=
  ⟨s.place, l, .between⟩

/-- The scan behind a scalar. -/
def pushScalar (s : Scan) (text : List Char) : Scan :=
  s.withLayout (s.layout.push (.scalar (String.ofList text.reverse)))

/-- The scan behind a plain text. A key may start in the line after it. -/
def pushPlain (s : Scan) (text : List Char) (gap : Gap) : Scan :=
  let s := s.pushScalar text
  s.withLayout { s.layout with keyAllowed := s.layout.keyAllowed || gap.isBroken }

/-- The sign between documents that stands at the front of a text, in the first column. -/
def separator? (s : Scan) (cs : List Char) : Option Mark :=
  if s.place.column ≠ 0 then none
  else if isTriple '-' cs then some .documentStart
  else if isTriple '.' cs then some .documentEnd
  else none

/-- The characters that start no plain text. Dashes, question marks and colons start one where they
are no signs. -/
def isIndicator (c : Char) : Bool :=
  ['#', '&', '*', '!', '|', '>', '%', '@', '\x60', '\t'].contains c

/-- Takes the first character of a mark. -/
def takeMark (s : Scan) (c : Char) (cs : List Char) : Option Scan := do
  let l ← s.layout.dropDistant s.place
  let l := l.closeBeyond s.place.column
  match s.separator? (c :: cs) with
  | some m => (l.separator m).map fun l => ⟨s.place, l, .sign 2⟩
  | none =>
    if c = '[' then (l.openBracket .openList s.place).map s.withLayout
    else if c = '\x7b' then (l.openBracket .openMap s.place).map s.withLayout
    else if c = ']' then (l.closeBracket .closeList).map s.withLayout
    else if c = '\x7d' then (l.closeBracket .closeMap).map s.withLayout
    else if c = ',' then l.comma.map s.withLayout
    else if c = '-' ∧ isGapAhead cs then (l.dash s.place).map s.withLayout
    else if c = '?' ∧ (!l.inBlock || isGapAhead cs) then (l.key s.place).map s.withLayout
    else if c = ':' ∧ (!l.inBlock || isGapAhead cs) then (l.value s.place).map s.withLayout
    else if isIndicator c then none
    else (l.openScalar s.place).map fun l =>
      ⟨s.place, l,
        if c = '\'' then .single [] .empty
        else if c = '"' then .double [] .empty
        else .plain l.indent [c] .empty⟩

/-- Takes a character between marks. Tabs are refused where indentation matters. -/
def between (s : Scan) (c : Char) (cs : List Char) : Option Scan :=
  if c = ' ' then some s
  else if c = byteOrderMark ∧ s.place.column = 0 then some s
  else if c = '\t' ∧ !(s.layout.inBlock && s.layout.keyAllowed) then some s
  else if c = '#' then some (s.enter .comment)
  else if isBreak c then
    some (s.withLayout { s.layout with keyAllowed := s.layout.keyAllowed || s.layout.inBlock })
  else s.takeMark c cs

/-- Whether a plain text that goes on behind a gap ends here all the same. -/
def endsBehindGap (s : Scan) (indent : Nat) (cs : List Char) : Bool :=
  (s.layout.inBlock && s.place.column < indent) || cs.head? == some '#' || (s.separator? cs).isSome

/-- Whether a colon stands directly in front of a bracket, a comma or a question mark. -/
def isCrampedColon : List Char → Bool
  | ':' :: c :: _ => [',', '?', '[', ']', '\x7b', '\x7d'].contains c
  | _ => false

/-- Whether a plain text ends in front of these characters. -/
def endsPlain (s : Scan) : List Char → Bool
  | [] => true
  | c :: cs =>
    (c == ':' && isGapAhead cs) ||
      (!s.layout.inBlock && [',', '[', ']', '\x7b', '\x7d'].contains c)

/-- Takes a character of a plain text, or the one that ends it. -/
def takePlain (s : Scan) (indent : Nat) (text : List Char) (gap : Gap) (c : Char) (cs : List Char) :
    Option Scan :=
  if isBlank c || isBreak c then
    if c = '\t' ∧ gap.isBroken ∧ s.place.column < indent then none
    else some (s.enter (.plain indent text (gap.add c)))
  else if gap ≠ .empty ∧ s.endsBehindGap indent (c :: cs) then (s.pushPlain text gap).between c cs
  else if !s.layout.inBlock && isCrampedColon (c :: cs) then none
  else if s.endsPlain (c :: cs) then (s.pushPlain text gap).between c cs
  else some (s.enter (.plain indent (c :: (gap.folded ++ text)) .empty))

/-- Takes a character of a text in single quotes. -/
def takeSingle (s : Scan) (text : List Char) (gap : Gap) (c : Char) (cs : List Char) :
    Option Scan :=
  if isBlank c || isBreak c then some (s.enter (.single text (gap.add c)))
  else if (s.separator? (c :: cs)).isSome then none
  else if c = '\'' then some (s.enter (.singleQuote (gap.folded ++ text)))
  else some (s.enter (.single (c :: (gap.folded ++ text)) .empty))

/-- Takes a character of a text in double quotes. -/
def takeDouble (s : Scan) (text : List Char) (gap : Gap) (c : Char) (cs : List Char) :
    Option Scan :=
  if isBlank c || isBreak c then some (s.enter (.double text (gap.add c)))
  else if (s.separator? (c :: cs)).isSome then none
  else if c = '"' then some (s.pushScalar (gap.folded ++ text))
  else if c = '\\' then some (s.enter (.escape (gap.folded ++ text)))
  else some (s.enter (.double (c :: (gap.folded ++ text)) .empty))

/-- The character that a backslash and `c` stand for. -/
def escaped? (c : Char) : Option Char :=
  [('0', '\x00'), ('a', '\x07'), ('b', '\x08'), ('t', '\t'), ('\t', '\t'), ('n', '\n'),
   ('v', '\x0b'), ('f', '\x0c'), ('r', '\r'), ('e', '\x1b'), (' ', ' '), ('"', '"'), ('/', '/'),
   ('\\', '\\'), ('N', '\u0085'), ('_', '\u00a0'), ('L', '\u2028'), ('P', '\u2029')].lookup c

/-- The number of hexadecimal digits behind a backslash and `c`. -/
def codeLength? (c : Char) : Option Nat :=
  [('x', 2), ('u', 4), ('U', 8)].lookup c

/-- Takes the character behind a backslash. -/
def takeEscape (s : Scan) (text : List Char) (c : Char) : Option Scan :=
  if isBreak c then some (s.enter (.double text (.breaks none [])))
  else
    match codeLength? c with
    | some n => some (s.enter (.code text n 0))
    | none => (escaped? c).map fun d => s.enter (.double (d :: text) .empty)

/-- The value of a hexadecimal digit. -/
def hexDigit? (c : Char) : Option Nat :=
  let n := c.toNat
  if 48 ≤ n ∧ n ≤ 57 then some (n - 48)
  else if 65 ≤ n ∧ n ≤ 70 then some (n - 55)
  else if 97 ≤ n ∧ n ≤ 102 then some (n - 87)
  else none

/-- Takes a digit of the number of a character. -/
def takeCode (s : Scan) (text : List Char) (digits value : Nat) (c : Char) : Option Scan := do
  let d ← hexDigit? c
  let value := 16 * value + d
  if 1 < digits then some (s.enter (.code text (digits - 1) value))
  else if value.isValidChar then some (s.enter (.double (Char.ofNat value :: text) .empty))
  else none

/-- Takes a character in the mode of the scan. -/
def take (s : Scan) (c : Char) (cs : List Char) : Option Scan :=
  match s.mode with
  | .between => s.between c cs
  | .comment => if isBreak c then (s.enter .between).between c cs else some s
  | .sign count => some (s.enter (if 1 < count then .sign (count - 1) else .between))
  | .plain indent text gap => s.takePlain indent text gap c cs
  | .single text gap => s.takeSingle text gap c cs
  | .singleQuote text =>
    if c = '\'' then some (s.enter (.single (c :: text) .empty))
    else (s.pushScalar text).between c cs
  | .double text gap => s.takeDouble text gap c cs
  | .escape text => s.takeEscape text c
  | .code text digits value => s.takeCode text digits value c

/-- The scan of the characters that are left. -/
def run (s : Scan) : List Char → Option Scan
  | [] => some s
  | c :: cs => do
    let s ← s.take c cs
    run { s with place := s.place.next (isBreak c) } cs

/-- The marks of a document that ends here, if nothing is left open. -/
def finish (s : Scan) : Option (List Mark) :=
  match s.mode with
  | .between | .comment => s.layout.finish
  | .plain _ text gap => (s.pushPlain text gap).layout.finish
  | .singleQuote text => (s.pushScalar text).layout.finish
  | _ => none

end Scan

/-- The marks of a document, if it can be read. -/
def marks? (document : String) : Option (List Mark) := do
  let cs ← prepare document.toList
  let s ← Scan.start.run cs
  s.finish

end ShapeFault.Document
