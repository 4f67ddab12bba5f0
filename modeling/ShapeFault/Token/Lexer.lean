import ShapeFault.Token.Basic
import ShapeFault.Token.Lexeme

/-!
# Reading tokens

A `Cursor` is a place in a line together with the text from there on, and `Cursor.next` reads one
token or error and moves on. `tokenize` reads a whole line and stops at the first error; a `Stream`
goes on after errors, and ends after the mark that ends the line.
-/

namespace ShapeFault

/-- A place in a line: the bytes before it, and the characters after it. -/
structure Cursor where
  offset : Nat
  rest : List Char
  deriving DecidableEq, Repr

namespace Cursor

/-- The start of a line. -/
def start (line : String) : Cursor :=
  ⟨0, line.toList⟩

/-- The number of bytes of a text. -/
def byteLength : List Char → Nat
  | [] => 0
  | c :: cs => c.utf8Size + byteLength cs

/-- The place `n` characters further on. -/
def advance (s : Cursor) (n : Nat) : Cursor :=
  ⟨s.offset + byteLength (s.rest.take n), s.rest.drop n⟩

/-- The place of the next token or error, behind blanks and comments. -/
def skipTrivia (s : Cursor) : Cursor :=
  s.advance (Lexeme.triviaLength false s.rest)

/-- The token of this kind and length at a place. -/
def token (s : Cursor) (kind : Token.Kind) (length : Nat) : Token :=
  ⟨kind, String.ofList (s.rest.take length), ⟨s.offset, (s.advance length).offset⟩⟩

/-- The answer for what stands at a place. -/
def answer (s : Cursor) (c : Char) : Front → Except LexError Token
  | .token kind n => .ok (s.token kind n)
  | .largeNumber n => .error (.invalidNumber (String.ofList (s.rest.take n)) s.offset)
  | .openString _ => .error (.unterminatedString s.offset)
  | .unknown _ => .error (.unexpectedCharacter c s.offset)

/-- The next token or error, and the place behind it. At the end of the line this is the mark that
ends it. -/
def next (s : Cursor) : Except LexError Token × Cursor :=
  let here := s.skipTrivia
  match here.rest with
  | [] => (.ok (Token.ending here.offset), here)
  | c :: cs =>
    let front := Front.of c cs
    (here.answer c front, here.advance front.length)

end Cursor

namespace Lexeme

theorem digitCount_cons_of_isDigit {c : Char} (h : c.isDigit) (cs : List Char) :
    digitCount (c :: cs) = digitCount cs + 1 := by
  simp [digitCount, h]

theorem digitCount_cons_of_not_isDigit {c : Char} (h : ¬ c.isDigit) (cs : List Char) :
    digitCount (c :: cs) = 0 := by
  simp [digitCount, h]

/-- A number has at least one character. -/
theorem numberLength_pos {cs : List Char} (h : startsNumber cs) : 0 < numberLength cs := by
  unfold startsNumber at h
  split at h
  · rename_i c cs
    have hdot : ¬ ('.' : Char).isDigit := by decide
    have hpoint : pointBelongs (c :: cs) := by
      have hne : c ≠ '.' := by rintro rfl; exact hdot h
      have hword := Text.startsWord_eq_false_of_isDigit h
      simp [pointBelongs, hne, hword]
    simp only [numberLength, digitCount_cons_of_not_isDigit hdot, List.drop_zero, fractionLength,
      hpoint]
    simp only [and_self, if_true]
    omega
  · rename_i c cs _
    simp only [numberLength, digitCount_cons_of_isDigit h]
    omega
  · cases h

theorem wordLength_pos {c : Char} (h : Text.startsWord c) (cs : List Char) :
    0 < wordLength (c :: cs) := by
  simp [wordLength, Text.continuesWord_of_startsWord h]

end Lexeme

namespace Front

theorem atFront?_spelling_pos {cs : List Char} {k : Token.Kind}
    (h : Token.Kind.atFront? cs = some k) : 0 < k.spelling.length := by
  have hk := List.mem_of_find?_eq_some h
  have : ∀ k ∈ Token.Kind.punctuation, 0 < k.spelling.length := by decide
  exact this k hk

/-- A token is not empty. -/
theorem length_pos_of_eq_token {c : Char} {cs : List Char} {kind : Token.Kind} {n : Nat}
    (h : of c cs = .token kind n) : 0 < n := by
  unfold of at h
  split at h
  · rename_i hs
    simp only at h
    split at h
    · cases h
    · cases h; exact Lexeme.numberLength_pos hs
  · split at h
    · split at h
      · cases h; omega
      · cases h
    · split at h
      · rename_i hw
        cases h; exact Lexeme.wordLength_pos hw cs
      · split at h
        · rename_i k hk
          cases h; exact atFront?_spelling_pos hk
        · cases h

end Front

namespace Cursor

/-- A token other than the mark of the end takes at least one character. -/
theorem length_rest_next_lt {s s' : Cursor} {t : Token} (h : s.next = (.ok t, s'))
    (ht : t.kind ≠ .endMarker) : s'.rest.length < s.rest.length := by
  unfold next at h
  simp only at h
  split at h
  · simp only [Prod.mk.injEq, Except.ok.injEq] at h
    exact absurd (by rw [← h.1]; rfl) ht
  · rename_i c cs hrest
    simp only [Prod.mk.injEq] at h
    obtain ⟨ha, rfl⟩ := h
    have hle : s.skipTrivia.rest.length ≤ s.rest.length := by
      simp [skipTrivia, advance]
    cases hf : Front.of c cs with
    | token kind n =>
      have hn := Front.length_pos_of_eq_token hf
      have hpos : 0 < s.skipTrivia.rest.length := by rw [hrest]; simp
      simp only [Front.length, advance, List.length_drop]
      simp only [skipTrivia, advance, List.length_drop] at hle hpos ⊢
      omega
    | largeNumber n => simp [hf, answer] at ha
    | openString n => simp [hf, answer] at ha
    | unknown n => simp [hf, answer] at ha

/-- The tokens from a place to the end of the line, with the mark that ends it, or the first error
on the way. -/
def tokens (s : Cursor) : Except LexError (List Token) :=
  match _h : s.next with
  | (.error e, _) => .error e
  | (.ok t, s') =>
    if _ht : t.kind = .endMarker then .ok [t]
    else
      match s'.tokens with
      | .error e => .error e
      | .ok ts => .ok (t :: ts)
termination_by s.rest.length
decreasing_by exact length_rest_next_lt _h _ht

end Cursor

/-- The tokens of a line. The last of them, and only the last, is the mark that ends the line. -/
def tokenize (line : String) : Except LexError (List Token) :=
  (Cursor.start line).tokens

/-- A line that is being read piece by piece, errors included. -/
structure Stream where
  cursor : Cursor
  /-- whether the mark that ends the line has been read -/
  finished : Bool
  deriving DecidableEq, Repr

namespace Stream

/-- A line of which nothing has been read. -/
def start (line : String) : Stream :=
  ⟨Cursor.start line, false⟩

/-- The next token or error, if the line goes on, and what is left. -/
def next? (s : Stream) : Option (Except LexError Token) × Stream :=
  if s.finished then (none, s)
  else
    match s.cursor.next with
    | (.ok t, c) => (some (.ok t), ⟨c, t.kind == .endMarker⟩)
    | (.error e, c) => (some (.error e), ⟨c, false⟩)

/-- The answers of `count` readings in a row. -/
def take (s : Stream) : (count : Nat) → List (Option (Except LexError Token))
  | 0 => []
  | n + 1 => s.next?.1 :: s.next?.2.take n

end Stream

end ShapeFault
