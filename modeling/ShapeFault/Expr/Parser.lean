import ShapeFault.Expr.Construct
import ShapeFault.Token.Lexer

/-!
# Reading a line

`parse` turns a line into a tree. A line without tokens, and one whose first token is the keyword of
a statement, holds nothing to analyse. The tokens behind the first mark of an end are ignored, so a
`TokenLine` has no such mark, only the place of it.
-/

namespace ShapeFault

open Token (Kind)

/-- Why a line is not a tree. -/
inductive ParseError where
  | lexical (error : LexError)
  /-- a token, or the end of the line if `found` is `none`, in place of something expected -/
  | unexpected (position : Nat) (expected : List Expected) (found : Option String)
  deriving DecidableEq, Repr

namespace ParseError

/-- Where the first piece that is not right starts. -/
def position : ParseError → Nat
  | lexical e => e.position
  | unexpected p _ _ => p

/-- How a message names what was found. -/
def foundText : Option String → String
  | some t => "'" ++ t ++ "'"
  | none => "end of line"

def message : ParseError → String
  | lexical e => e.message
  | unexpected p expected found =>
    "Syntax error at position " ++ p.repr ++ ": expected " ++
      String.intercalate " or " (expected.map Expected.text) ++ ", found " ++ foundText found

end ParseError

/-- The tokens of a line up to the mark of its end, and the place of that mark. -/
structure TokenLine where
  tokens : List Token
  stop : Nat
  deriving DecidableEq, Repr

namespace TokenLine

/-- The tokens in front of the first mark of an end. Without a mark the line ends where its last
token does. -/
def ofTokens (ts : List Token) : TokenLine where
  tokens := ts.takeWhile (·.kind ≠ .endMarker)
  stop :=
    match ts.find? (·.kind = .endMarker) with
    | some t => t.span.start
    | none => (ts.getLast?.map (·.span.stop)).getD 0

/-- The words that open a statement which is no expression. -/
def statementWords : List String :=
  ["def", "class", "return", "if", "elif", "else", "for", "while", "import", "from", "pass",
   "break", "continue", "with", "try", "except", "finally", "raise", "assert", "del", "global",
   "nonlocal", "lambda", "yield"]

/-- Whether a line holds nothing to analyse. -/
def isIdle (l : TokenLine) : Bool :=
  match l.tokens with
  | [] => true
  | t :: _ => t.kind = .name && statementWords.contains t.text

/-- The error of a refusal at the first of the tokens that are left, or at the end of the line. -/
def error (l : TokenLine) (left : List Token) : Refusal → ParseError
  | .expected alternatives =>
    match left with
    | t :: _ => .unexpected t.span.start alternatives (some t.text)
    | [] => .unexpected l.stop alternatives none
  | .badNumber =>
    match left with
    | t :: _ => .lexical (.invalidNumber t.text t.span.start)
    | [] => .unexpected l.stop Expected.operand none

/-- Reads the tokens that are left and closes the tree, or says which tokens are left where the line
is refused, and why. -/
def read (r : Reading) : List Token → Except (List Token × Refusal) Node
  | [] => r.finish.mapError fun e => ([], e)
  | t :: ts =>
    match r.step t with
    | .ok r => read r ts
    | .error e => .error (t :: ts, e)

/-- The tree of a line, if it holds something to analyse. -/
def parse (l : TokenLine) : Except ParseError (Option Node) :=
  if l.isIdle then .ok none
  else
    match read .start l.tokens with
    | .ok e => .ok (some e)
    | .error (left, e) => .error (l.error left e)

end TokenLine

/-- The tree of a list of tokens, if it holds something to analyse. -/
def parseTokens (ts : List Token) : Except ParseError (Option Node) :=
  (TokenLine.ofTokens ts).parse

/-- The tree of a line, if it holds something to analyse. -/
def parse (line : String) : Except ParseError (Option Node) :=
  match tokenize line with
  | .ok ts => parseTokens ts
  | .error e => .error (.lexical e)

end ShapeFault
