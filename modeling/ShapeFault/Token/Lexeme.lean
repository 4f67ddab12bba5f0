import ShapeFault.Decimal.Basic
import ShapeFault.Text.Blank
import ShapeFault.Text.Letter
import ShapeFault.Token.Kind
import ShapeFault.Word

/-!
# Lexemes

What stands at the front of a text, as a function of the text alone. All lengths are counted in
characters.

`triviaLength` measures the blanks and comments before the next lexeme, `numberLength` a number,
`stringTail` the rest of a string after its opening quote, and `Front.of` puts them together: it
says which token a text begins with and how long it is, or why it begins with none.
-/

namespace ShapeFault

namespace Lexeme

/-- The length of the blanks and comments at the front of a text. A comment runs from `#` up to the
end of its line; `inComment` says that one has been opened already. -/
def triviaLength (inComment : Bool) : List Char → Nat
  | [] => 0
  | c :: cs =>
    if inComment then
      triviaLength (c != '\n') cs + 1
    else if Text.isBlank c then
      triviaLength false cs + 1
    else if c = '#' then
      triviaLength true cs + 1
    else 0

/-- The number of decimal digits at the front of a text. -/
def digitCount (cs : List Char) : Nat :=
  (cs.takeWhile Char.isDigit).length

/-- The length of a sign at the front of a text, 0 if there is none. -/
def signLength : List Char → Nat
  | c :: _ => if c = '+' ∨ c = '-' then 1 else 0
  | [] => 0

/-- The length of an exponent such as `e5` or `E-3` at the front of a text, 0 if there is none. The
letter alone, or with a sign, is no exponent. -/
def exponentLength : List Char → Nat
  | c :: cs =>
    if c = 'e' ∨ c = 'E' then
      let sign := signLength cs
      match digitCount (cs.drop sign) with
      | 0 => 0
      | n + 1 => 1 + sign + (n + 1)
    else 0
  | [] => 0

/-- Whether a point that follows digits belongs to the number, given what follows the point. It does
not before another point or a word, as in `1..2` and `1.real`, unless that word starts with an
exponent. -/
def pointBelongs (cs : List Char) : Bool :=
  exponentLength cs != 0 ||
    match cs with
    | c :: _ => !(c == '.' || Text.startsWord c)
    | [] => true

/-- The length of the point and the digits of a fraction at the front of a text. -/
def fractionLength : List Char → Nat
  | c :: cs => if c = '.' ∧ pointBelongs cs then digitCount cs + 1 else 0
  | [] => 0

/-- The length of the number at the front of a text: digits, a fraction and an exponent. -/
def numberLength (cs : List Char) : Nat :=
  let digits := digitCount cs
  let fraction := fractionLength (cs.drop digits)
  digits + fraction + exponentLength (cs.drop (digits + fraction))

/-- Whether a number starts at the front of a text: a digit, or a point and a digit. -/
def startsNumber : List Char → Bool
  | '.' :: c :: _ => c.isDigit
  | c :: _ => c.isDigit
  | [] => false

/-- The rest of a string after its opening quote: how many characters up to its end, and whether a
closing quote stands there. A backslash hides the character after it, and a line break ends a string
that has not been closed. -/
def stringTail (quote : Char) : List Char → Nat × Bool
  | [] => (0, false)
  | '\\' :: [] => (1, false)
  | '\\' :: _ :: cs =>
    let tail := stringTail quote cs
    (tail.1 + 2, tail.2)
  | c :: cs =>
    if c = quote then (1, true)
    else if c = '\n' then (1, false)
    else
      let tail := stringTail quote cs
      (tail.1 + 1, tail.2)

/-- The length of the word at the front of a text. -/
def wordLength (cs : List Char) : Nat :=
  (cs.takeWhile Text.continuesWord).length

end Lexeme

/-- What a text begins with when it begins with neither a blank nor a comment. -/
inductive Front where
  /-- a token of this kind and length -/
  | token (kind : Token.Kind) (length : Nat)
  /-- digits of this length, whose value is too large -/
  | largeNumber (length : Nat)
  /-- a string that is not closed, of this length -/
  | openString (length : Nat)
  /-- a character that no token starts with; `length` is 1 if it is passed over and 0 if not -/
  | unknown (length : Nat)
  deriving DecidableEq, Repr

namespace Front

open Lexeme

/-- What the text with first character `c` and other characters `cs` begins with. -/
def of (c : Char) (cs : List Char) : Front :=
  if startsNumber (c :: cs) then
    let n := numberLength (c :: cs)
    if n = digitCount (c :: cs) ∧ Word.half ≤ Decimal.value ((c :: cs).take n) then .largeNumber n
    else .token .number n
  else if c = '"' ∨ c = '\'' then
    match stringTail c cs with
    | (n, true) => .token .string (n + 1)
    | (n, false) => .openString (n + 1)
  else if Text.startsWord c then
    let n := wordLength (c :: cs)
    .token (Token.Kind.ofWord (String.ofList ((c :: cs).take n))) n
  else
    match Token.Kind.atFront? (c :: cs) with
    | some k => .token k k.spelling.length
    | none => .unknown (if c = '!' then 1 else 0)

/-- How many characters are passed over before the next token is read. -/
def length : Front → Nat
  | .token _ n | .largeNumber n | .openString n | .unknown n => n

end Front

end ShapeFault
