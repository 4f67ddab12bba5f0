/-!
# Characters of documents

Which characters a YAML document may hold, and which of them part its pieces. The **line breaks**
are the line feed, the carriage return, the two of them in a row, and U+0085, U+2028 and U+2029.
`prepare` turns all of them but the last two into line feeds and drops a byte order mark at the
front, so that no reader has to look for the others.
-/

namespace ShapeFault.Document

/-- Whether a document may hold the character: most control characters are refused. -/
def isAllowed (c : Char) : Bool :=
  let n := c.toNat
  n == 0x9 || n == 0xa || n == 0xd || n == 0x85 || (0x20 ≤ n && n ≤ 0x7e) ||
    (0xa0 ≤ n && n ≤ 0xfffd) || 0x10000 ≤ n

/-- The character U+FEFF, which is passed over at the start of a line. -/
def byteOrderMark : Char :=
  '\ufeff'

/-- Whether a character is a line break of a prepared document. -/
def isBreak (c : Char) : Bool :=
  c == '\n' || c == '\u2028' || c == '\u2029'

/-- Whether a character is a space or a tab. -/
def isBlank (c : Char) : Bool :=
  c == ' ' || c == '\t'

/-- Whether a document ends here or goes on with a blank or a line break. -/
def isGapAhead : List Char → Bool
  | [] => true
  | c :: _ => isBlank c || isBreak c

/-- Whether a line consists, up to its first blank, of the character `c` three times. -/
def isTriple (c : Char) : List Char → Bool
  | c1 :: c2 :: c3 :: cs => c1 == c && c2 == c && c3 == c && isGapAhead cs
  | _ => false

/-- Writes the line breaks with a carriage return or U+0085 as line feeds. -/
def unifyBreaks : List Char → List Char
  | [] => []
  | '\r' :: '\n' :: cs => '\n' :: unifyBreaks cs
  | c :: cs => (if c = '\r' ∨ c = '\u0085' then '\n' else c) :: unifyBreaks cs

/-- A document without a byte order mark at its front. -/
def dropMark : List Char → List Char
  | c :: cs => if c = byteOrderMark then cs else c :: cs
  | [] => []

/-- A document in the form in which it is read, if all its characters are allowed. -/
def prepare (cs : List Char) : Option (List Char) :=
  if cs.all isAllowed then some (unifyBreaks (dropMark cs)) else none

end ShapeFault.Document
