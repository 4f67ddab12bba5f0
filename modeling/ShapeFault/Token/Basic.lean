import ShapeFault.Token.Kind

/-!
# Tokens

A token is a piece of a line together with its kind and its place. Places are counted in the bytes
of the line's UTF-8 form, from zero.
-/

namespace ShapeFault

/-- The bytes from `start` up to and not including `stop`. -/
structure Span where
  start : Nat
  stop : Nat
  deriving DecidableEq, Repr

/-- A piece of a line, with its kind and its place. -/
structure Token where
  kind : Token.Kind
  text : String
  span : Span
  deriving DecidableEq, Repr

namespace Token

/-- The mark that ends a line of `position` bytes. -/
def ending (position : Nat) : Token :=
  ⟨.endMarker, "", ⟨position, position⟩⟩

end Token

/-- Why no token could be read. -/
inductive LexError where
  /-- no token starts with this character -/
  | unexpectedCharacter (character : Char) (position : Nat)
  /-- the number is not one that can be held -/
  | invalidNumber (literal : String) (position : Nat)
  /-- the quote that opens a string has no partner -/
  | unterminatedString (position : Nat)
  deriving DecidableEq, Repr

namespace LexError

/-- Where the piece that could not be read starts. -/
def position : LexError → Nat
  | unexpectedCharacter _ p | invalidNumber _ p | unterminatedString p => p

def message : LexError → String
  | unexpectedCharacter c p => "Unexpected character '" ++ c.toString ++ "' at position " ++ p.repr
  | invalidNumber s p => "Invalid number literal '" ++ s ++ "' at position " ++ p.repr
  | unterminatedString p => "Unterminated string literal at position " ++ p.repr

end LexError

end ShapeFault
