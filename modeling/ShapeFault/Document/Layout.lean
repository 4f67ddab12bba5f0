import ShapeFault.Document.Mark

/-!
# The layout of a document

Indentation opens and closes blocks, and most keys are only known as such when the colon behind them
is reached. `Layout` holds what this takes: the marks found so far, the columns of the open blocks,
and for each open bracket the place where a key may have started. When a colon is reached, the mark
of the key is put in front of it, together with the start of a map if the key opens one.

Such a key must end in the line in which it started, not more than 1024 characters further on. In a
block, what stands in the column of that block **must** be a key: if it turns out to be none, the
document is refused.
-/

namespace ShapeFault.Document

/-- A place in a document, counted in characters. -/
structure Place where
  offset : Nat
  line : Nat
  column : Nat
  deriving DecidableEq, Repr

namespace Place

/-- The first place. -/
def start : Place :=
  ⟨0, 0, 0⟩

/-- The place behind one more character; `endsLine` says that it is a line break. -/
def next (p : Place) (endsLine : Bool) : Place :=
  if endsLine then ⟨p.offset + 1, p.line + 1, 0⟩ else ⟨p.offset + 1, p.line, p.column + 1⟩

end Place

/-- A place where a key may have started. -/
structure Candidate where
  place : Place
  /-- the number of marks in front of it -/
  before : Nat
  /-- whether nothing but a key may stand there -/
  required : Bool
  deriving DecidableEq, Repr

/-- Whether a key that started there may still be going on at `p`. -/
def Candidate.reaches (k : Candidate) (p : Place) : Bool :=
  k.place.line == p.line && p.offset ≤ k.place.offset + 1024

/-- What has been found in a document up to some place. -/
structure Layout where
  /-- the marks, the last one first -/
  marks : List Mark
  /-- the columns of the open blocks, the innermost one first -/
  columns : List Nat
  /-- where the key at hand may have started -/
  candidate : Option Candidate
  /-- the same for the brackets around, the innermost one first -/
  outer : List (Option Candidate)
  /-- whether a key without a sign of its own may start here -/
  keyAllowed : Bool
  deriving DecidableEq, Repr

namespace Layout

/-- Nothing has been found. -/
def start : Layout :=
  ⟨[], [], none, [], true⟩

/-- Whether no bracket is open, so that indentation matters. -/
def inBlock (l : Layout) : Bool :=
  l.outer.isEmpty

/-- The least column for the further lines of a plain text. -/
def indent (l : Layout) : Nat :=
  match l.columns with
  | [] => 0
  | column :: _ => column + 1

/-- The layout with one more mark. -/
def push (l : Layout) (m : Mark) : Layout :=
  { l with marks := m :: l.marks }

/-- Puts a mark behind the first `before` ones. -/
def insert (l : Layout) (before : Nat) (m : Mark) : Layout :=
  { l with marks := l.marks.insertIdx (l.marks.length - before) m }

/-- Gives up the candidate at hand. -/
def dropCandidate (l : Layout) : Option Layout :=
  if l.candidate.any (·.required) then none else some { l with candidate := none }

/-- Gives up the candidates that are too far away from `p`. -/
def dropDistant (l : Layout) (p : Place) : Option Layout :=
  if (l.candidate :: l.outer).any (·.any fun k => k.required && !k.reaches p) then none
  else some { l with
    candidate := l.candidate.filter (·.reaches p)
    outer := l.outer.map (·.filter (·.reaches p)) }

/-- Takes note that a key may start at `p`. -/
def addCandidate (l : Layout) (p : Place) : Option Layout :=
  if l.keyAllowed then do
    let l ← l.dropCandidate
    some { l with
      candidate := some ⟨p, l.marks.length, l.inBlock && l.columns.head? == some p.column⟩ }
  else some l

/-- Closes the innermost `count` blocks. -/
def closeBlocks (l : Layout) (count : Nat) : Layout :=
  { l with marks := List.replicate count .blockEnd ++ l.marks, columns := l.columns.drop count }

/-- Closes the blocks that end in front of something in a given column. -/
def closeBeyond (l : Layout) (column : Nat) : Layout :=
  if l.inBlock then l.closeBlocks (l.columns.takeWhile (column < ·)).length else l

/-- Closes all blocks. -/
def closeAll (l : Layout) : Layout :=
  if l.inBlock then l.closeBlocks l.columns.length else l

/-- Opens a block in a column further in than those that are open; its mark goes behind the first
`before` ones. -/
def openBlock (l : Layout) (m : Mark) (column before : Nat) : Layout :=
  if l.inBlock && l.columns.head?.all (· < column) then
    { l.insert before m with columns := column :: l.columns }
  else l

/-- An opening bracket. The collection may be a key as a whole. -/
def openBracket (l : Layout) (m : Mark) (p : Place) : Option Layout := do
  let l ← l.addCandidate p
  some { l.push m with candidate := none, outer := l.candidate :: l.outer, keyAllowed := true }

/-- A closing bracket. -/
def closeBracket (l : Layout) (m : Mark) : Option Layout := do
  let l ← l.dropCandidate
  some { l.push m with
    candidate := l.outer.head?.getD none, outer := l.outer.tail, keyAllowed := false }

/-- A comma. -/
def comma (l : Layout) : Option Layout := do
  let l ← l.dropCandidate
  some { l.push .comma with keyAllowed := true }

/-- A dash in front of a member. Between brackets it is left to the reader of the marks. -/
def dash (l : Layout) (p : Place) : Option Layout :=
  if l.inBlock && !l.keyAllowed then none
  else do
    let l ← (l.openBlock .blockList p.column l.marks.length).dropCandidate
    some { l.push .dash with keyAllowed := true }

/-- A question mark in front of a key. -/
def key (l : Layout) (p : Place) : Option Layout :=
  if l.inBlock && !l.keyAllowed then none
  else do
    let l ← (l.openBlock .blockMap p.column l.marks.length).dropCandidate
    some { l.push .key with keyAllowed := l.inBlock }

/-- A colon in front of a value. -/
def value (l : Layout) (p : Place) : Option Layout :=
  match l.candidate with
  | some k =>
    let l := (l.insert k.before .key).openBlock .blockMap k.place.column k.before
    some { l.push .value with candidate := none, keyAllowed := false }
  | none =>
    if l.inBlock && !l.keyAllowed then none
    else
      let l := l.openBlock .blockMap p.column l.marks.length
      some { l.push .value with keyAllowed := l.inBlock }

/-- The start of a scalar, which may be a key. -/
def openScalar (l : Layout) (p : Place) : Option Layout := do
  let l ← l.addCandidate p
  some { l with keyAllowed := false }

/-- A mark between documents. -/
def separator (l : Layout) (m : Mark) : Option Layout := do
  let l ← l.closeAll.dropCandidate
  some { l.push m with keyAllowed := false }

/-- The marks of a document that ends here. -/
def finish (l : Layout) : Option (List Mark) := do
  let l ← l.closeAll.dropCandidate
  some l.marks.reverse

end Layout

end ShapeFault.Document
