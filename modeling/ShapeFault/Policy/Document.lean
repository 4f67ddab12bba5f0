import ShapeFault.Document.Scan
import ShapeFault.Policy.Basic

/-!
# Policy documents

A policy document is a YAML mapping that has at most the one key `sentinels`, a list of texts:

```yaml
sentinels:
  - shape
  - "size mismatch"
```

List and mapping may be written with brackets as well. Texts are taken as they are: what looks like
a number stands for its digits. Without the key, and in an empty document, the standard policy is
meant; a key without a value stands for no sentinels at all.

Of YAML no more is read than such documents need: one with an anchor, a tag, a directive or a text
in a block of its own stands for no policy.

A policy is read from the marks of the document. No part of it is nested any deeper, so the readers
here need no more than the marks in front of them.
-/

namespace ShapeFault.Policy

open Document (Mark)

/-- The one key of a policy document. -/
def sentinelsKey : String :=
  "sentinels"

/-- The members of a block, each with a dash in front of it, and the marks that follow. A dash alone
stands for the empty text. -/
def dashed : List Mark → List String × List Mark
  | .dash :: .scalar s :: rest =>
    let (ss, rest) := dashed rest
    (s :: ss, rest)
  | .dash :: rest =>
    let (ss, rest) := dashed rest
    ("" :: ss, rest)
  | rest => ([], rest)

/-- The members of a list behind its opening bracket, and the marks behind the closing one. -/
def bracketed? : List Mark → Option (List String × List Mark)
  | .closeList :: rest => some ([], rest)
  | .scalar s :: .closeList :: rest => some ([s], rest)
  | .scalar s :: .comma :: rest => (bracketed? rest).map fun (ss, rest) => (s :: ss, rest)
  | _ => none

/-- The value of a key in a block, and the marks behind it. An absent value is an empty list. The
dashes of a list need not be further in than the key in front of it. -/
def blockValue? : List Mark → Option (List String × List Mark)
  | .value :: .openList :: rest => bracketed? rest
  | .value :: .blockList :: rest =>
    match dashed rest with
    | (ss, .blockEnd :: rest) => some (ss, rest)
    | _ => none
  | .value :: rest => some (dashed rest)
  | rest => some ([], rest)

/-- The value of a key between brackets, and the marks behind it. An absent value is an empty
list. -/
def bracketValue? : List Mark → Option (List String × List Mark)
  | .value :: .openList :: rest => bracketed? rest
  | .value :: rest => some ([], rest)
  | rest => some ([], rest)

/-- The policy with these sentinels, if `name` is the key for them. -/
def ofKey? (name : String) (sentinels : List String) : Option Policy :=
  if name = sentinelsKey then some ⟨sentinels⟩ else none

/-- The policy at the front of some marks, and the marks behind it. Between brackets a key without a
value needs no mark. -/
def ofMap? : List Mark → Option (Policy × List Mark)
  | .blockMap :: .key :: .scalar name :: rest =>
    match blockValue? rest with
    | some (ss, .blockEnd :: rest) => (ofKey? name ss).map (·, rest)
    | _ => none
  | .openMap :: .closeMap :: rest => some (standard, rest)
  | .openMap :: .key :: .scalar name :: rest =>
    match bracketValue? rest with
    | some (ss, .closeMap :: rest) | some (ss, .comma :: .closeMap :: rest) =>
      (ofKey? name ss).map (·, rest)
    | _ => none
  | .openMap :: .scalar name :: .closeMap :: rest
  | .openMap :: .scalar name :: .comma :: .closeMap :: rest => (ofKey? name []).map (·, rest)
  | _ => none

/-- The policy that the marks of a document stand for. Signs for the start and the end of the
document may stand around it, but there must not be another document. -/
def ofMarks? (marks : List Mark) : Option Policy :=
  match marks with
  | [] => some standard
  | .documentStart :: rest =>
    if rest.all (· = .documentEnd) then some standard else only? (ofMap? rest)
  | marks => only? (ofMap? marks)
where
  /-- The policy that nothing but the end of its document follows. -/
  only? : Option (Policy × List Mark) → Option Policy
    | some (p, rest) => if rest.all (· = .documentEnd) then some p else none
    | none => none

/-- The policy that a document stands for. -/
def ofDocument? (document : String) : Option Policy := do
  let marks ← Document.marks? document
  ofMarks? marks

/-- The policy that a document stands for, or why it stands for none. -/
def ofYaml (document : String) : Except String Policy :=
  match ofDocument? document with
  | some policy => .ok policy
  | none => .error "the document is not a mapping with a list of sentinels"

end ShapeFault.Policy
