/-!
# Kinds of tokens

The forty-one kinds of tokens of a line. Most kinds have one **spelling**: the operators and the
punctuation, listed in `Kind.punctuation` from the longest to the shortest, and six keywords, listed
in `Kind.keywords`. Names, numbers and strings have no spelling of their own, nor has the mark that
ends every line.
-/

namespace ShapeFault.Token

/-- What a token is. -/
inductive Kind where
  | name
  | number
  | string
  | trueWord
  | falseWord
  | noneWord
  | plus
  | minus
  | star
  | slash
  | doubleSlash
  | percent
  | doubleStar
  | atSign
  | doubleEqual
  | notEqual
  | less
  | lessEqual
  | greater
  | greaterEqual
  | andWord
  | orWord
  | notWord
  | equal
  | plusEqual
  | minusEqual
  | starEqual
  | slashEqual
  | doubleStarEqual
  | atEqual
  | leftParen
  | rightParen
  | leftBracket
  | rightBracket
  | leftBrace
  | rightBrace
  | comma
  | dot
  | colon
  | ellipsis
  | endMarker
  deriving DecidableEq, Repr, Inhabited

namespace Kind

/-- The upper-case word that stands for a kind in messages and outlines. -/
def label : Kind → String
  | name => "NAME"
  | number => "NUMBER"
  | string => "STRING"
  | trueWord => "TRUE"
  | falseWord => "FALSE"
  | noneWord => "NONE"
  | plus => "PLUS"
  | minus => "MINUS"
  | star => "STAR"
  | slash => "SLASH"
  | doubleSlash => "DOUBLESLASH"
  | percent => "PERCENT"
  | doubleStar => "DOUBLESTAR"
  | atSign => "AT"
  | doubleEqual => "EQEQUAL"
  | notEqual => "NOTEQUAL"
  | less => "LESS"
  | lessEqual => "LESSEQUAL"
  | greater => "GREATER"
  | greaterEqual => "GREATEREQUAL"
  | andWord => "AND"
  | orWord => "OR"
  | notWord => "NOT"
  | equal => "EQUAL"
  | plusEqual => "PLUSEQUAL"
  | minusEqual => "MINEQUAL"
  | starEqual => "STAREQUAL"
  | slashEqual => "SLASHEQUAL"
  | doubleStarEqual => "DOUBLESTAREQUAL"
  | atEqual => "ATEQUAL"
  | leftParen => "LPAR"
  | rightParen => "RPAR"
  | leftBracket => "LSQB"
  | rightBracket => "RSQB"
  | leftBrace => "LBRACE"
  | rightBrace => "RBRACE"
  | comma => "COMMA"
  | dot => "DOT"
  | colon => "COLON"
  | ellipsis => "ELLIPSIS"
  | endMarker => "ENDMARKER"

/-- The one text of a kind that has only one; empty for the others. -/
def spelling : Kind → String
  | trueWord => "True"
  | falseWord => "False"
  | noneWord => "None"
  | plus => "+"
  | minus => "-"
  | star => "*"
  | slash => "/"
  | doubleSlash => "//"
  | percent => "%"
  | doubleStar => "**"
  | atSign => "@"
  | doubleEqual => "=="
  | notEqual => "!="
  | less => "<"
  | lessEqual => "<="
  | greater => ">"
  | greaterEqual => ">="
  | andWord => "and"
  | orWord => "or"
  | notWord => "not"
  | equal => "="
  | plusEqual => "+="
  | minusEqual => "-="
  | starEqual => "*="
  | slashEqual => "/="
  | doubleStarEqual => "**="
  | atEqual => "@="
  | leftParen => "("
  | rightParen => ")"
  | leftBracket => "["
  | rightBracket => "]"
  | leftBrace => "\x7b"
  | rightBrace => "\x7d"
  | comma => ","
  | dot => "."
  | colon => ":"
  | ellipsis => "..."
  | name | number | string | endMarker => ""

/-- The operators and the punctuation, those with the longer spellings first. -/
def punctuation : List Kind :=
  [doubleStarEqual, ellipsis,
   doubleSlash, doubleStar, doubleEqual, notEqual, lessEqual, greaterEqual, plusEqual, minusEqual,
   starEqual, slashEqual, atEqual,
   plus, minus, star, slash, percent, atSign, less, greater, equal, leftParen, rightParen,
   leftBracket, rightBracket, leftBrace, rightBrace, comma, dot, colon]

/-- The kinds that are spelled as words. -/
def keywords : List Kind :=
  [andWord, orWord, notWord, trueWord, falseWord, noneWord]

/-- The operator or punctuation at the front of a text. The first kind of `punctuation` whose
spelling stands there has the longest spelling that does. -/
def atFront? (cs : List Char) : Option Kind :=
  punctuation.find? fun k => k.spelling.toList.isPrefixOf cs

/-- The kind of a word: its keyword if it is one, and a name otherwise. -/
def ofWord (word : String) : Kind :=
  (keywords.find? fun k => k.spelling = word).getD name

/-- Every kind, in the order of their declaration. -/
def all : List Kind :=
  [name, number, string, trueWord, falseWord, noneWord, plus, minus, star, slash, doubleSlash,
   percent, doubleStar, atSign, doubleEqual, notEqual, less, lessEqual, greater, greaterEqual,
   andWord, orWord, notWord, equal, plusEqual, minusEqual, starEqual, slashEqual, doubleStarEqual,
   atEqual, leftParen, rightParen, leftBracket, rightBracket, leftBrace, rightBrace, comma, dot,
   colon, ellipsis, endMarker]

theorem mem_all (k : Kind) : k ∈ all := by
  cases k <;> decide

/-- The kind with a given label. -/
def ofLabel? (s : String) : Option Kind :=
  all.find? fun k => k.label = s

theorem ofLabel?_label (k : Kind) : ofLabel? k.label = some k := by
  cases k <;> decide

/-- Later spellings in `punctuation` are no longer than earlier ones. -/
theorem punctuation_sorted :
    punctuation.Pairwise fun k l => l.spelling.length ≤ k.spelling.length := by
  decide

end Kind

end ShapeFault.Token
