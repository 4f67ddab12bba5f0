import ShapeFault.Document.Character

/-!
# Gaps in scalars

A text that is written over several lines is **folded**: a line break between two of its pieces
stands for a space, and n + 1 of them stand for n. `Gap` collects the blanks and line breaks between
two pieces, and `Gap.folded` says what they stand for. All texts here are held with their last
character first.
-/

namespace ShapeFault.Document

/-- The blanks and line breaks behind a piece of a text. -/
inductive Gap where
  /-- blanks only -/
  | blanks (text : List Char)
  /-- a first line break, unless that is hidden by a backslash, and further ones -/
  | breaks (first : Option Char) (more : List Char)
  deriving DecidableEq, Repr

namespace Gap

/-- There is nothing between two pieces. -/
def empty : Gap :=
  blanks []

/-- The gap with one more blank or line break. Blanks at the ends of lines have no meaning. -/
def add (g : Gap) (c : Char) : Gap :=
  match g with
  | blanks text => if isBreak c then breaks (some c) [] else blanks (c :: text)
  | breaks first more => if isBreak c then breaks first (c :: more) else breaks first more

/-- What a gap stands for. A first line feed is only kept, as a space, where no other break follows;
the other line breaks are kept. -/
def folded : Gap → List Char
  | blanks text => text
  | breaks (some c) more =>
    if c = '\n' then (if more = [] then [' '] else more) else more ++ [c]
  | breaks none more => more

/-- Whether the gap goes over the end of a line. -/
def isBroken : Gap → Bool
  | blanks _ => false
  | breaks _ _ => true

end Gap

end ShapeFault.Document
