/-!
# Marks

The pieces of a YAML document: texts, the signs between them, and the places where the indentation
opens and closes collections. A collection is a list or a map; it is written either as a **block**,
by indentation, or between brackets.
-/

namespace ShapeFault.Document

/-- A piece of a document. -/
inductive Mark where
  /-- three dashes, in front of a document -/
  | documentStart
  /-- three points, behind a document -/
  | documentEnd
  /-- the indentation opens a list -/
  | blockList
  /-- the indentation opens a map -/
  | blockMap
  /-- the indentation closes what it has opened -/
  | blockEnd
  | openList
  | closeList
  | openMap
  | closeMap
  /-- the sign in front of a member of a block -/
  | dash
  | comma
  /-- a key follows -/
  | key
  /-- the value of a key follows -/
  | value
  | scalar (text : String)
  deriving DecidableEq, Repr

end ShapeFault.Document
