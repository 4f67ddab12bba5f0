import ShapeFault.Expr.Literal
import ShapeFault.Token.Basic

/-!
# The grammar of lines

What a run of tokens can stand for is a `Phrase`: an expression of some `Tier`, the elements of a
call or a list, or a part of an index. `Derives` gives the productions and `DerivesLine` those of
a whole line. Nothing in this module reads tokens in order or looks ahead: the productions say which
trees belong to which tokens, and the reader of lines is compared with them elsewhere.

Tiers are ordered from the loosest operators to the operands. The five loosest ones are chains
that associate to the left, so the left operand of a chain has the tier of the chain and the right
one the next tighter tier; a power has a unary expression on its left and a power on its right.
-/

namespace ShapeFault

open Token (Kind)

/-- How tightly an expression holds together, from the loosest operators to the operands. -/
inductive Tier where
  | boolean
  | comparison
  | sum
  | term
  | matmul
  | power
  | unary
  | suffixed
  | primary
  deriving DecidableEq, Repr

namespace Tier

/-- The next tighter tier. Nothing is tighter than an operand. -/
def tighter : Tier → Tier
  | boolean => comparison
  | comparison => sum
  | sum => term
  | term => matmul
  | matmul => power
  | power => unary
  | unary => suffixed
  | suffixed | primary => primary

/-- The place of a tier in the order from loose to tight. -/
def rank : Tier → Nat
  | boolean => 1
  | comparison => 2
  | sum => 3
  | term => 4
  | matmul => 5
  | power => 6
  | unary => 7
  | suffixed => 8
  | primary => 9

theorem rank_le_rank_tighter (l : Tier) : l.rank ≤ l.tighter.rank := by
  cases l <;> decide

theorem rank_tighter_of_lt {l : Tier} (h : l.rank < 9) : l.tighter.rank = l.rank + 1 := by
  cases l <;> first | rfl | exact absurd h (by decide)

theorem boolean_rank_le (l : Tier) : boolean.rank ≤ l.rank := by
  cases l <;> decide

end Tier

namespace BinaryOp

/-- The tier of the expressions that an operator builds. -/
def tier : BinaryOp → Tier
  | and | or => .boolean
  | eq | ne | lt | le | gt | ge => .comparison
  | add | sub => .sum
  | mul | div | floorDiv | mod => .term
  | matmul => .matmul
  | pow => .power

theorem rank_tier (op : BinaryOp) : op.tier.rank = op.binding := by
  cases op <;> rfl

end BinaryOp

/-- The literal that a token stands for on its own. -/
inductive Literal.Written : Token → Literal → Prop where
  | number {t : Token} {l : Literal} (hk : t.kind = .number) (hl : ofNumber? t.text = some l) :
      Written t l
  | string {t : Token} (hk : t.kind = .string) : Written t (ofString t.text)
  | trueWord {t : Token} (hk : t.kind = .trueWord) : Written t (bool true)
  | falseWord {t : Token} (hk : t.kind = .falseWord) : Written t (bool false)
  | noneWord {t : Token} (hk : t.kind = .noneWord) : Written t none

/-- What a run of tokens can stand for. -/
inductive Phrase where
  /-- an expression in which no operator outside of brackets is looser than `tier` -/
  | expression (tier : Tier) (node : Node)
  /-- expressions with commas between them, possibly none -/
  | elements (nodes : List Node)
  /-- a bound of a slice, which may be absent -/
  | bound (node : Option Node)
  /-- an item of an index -/
  | item (item : IndexItem)
  /-- one or more items of an index with commas between them -/
  | items (items : List IndexItem)

/-- **The productions**: `Derives ts p` says that the tokens `ts` stand for the phrase `p`. -/
inductive Derives : List Token → Phrase → Prop where
  | chain {xs ys : List Token} {t : Token} {l : Tier} {op : BinaryOp} {a b : Node}
      (hop : op ≠ .pow) (hl : op.tier = l) (ha : Derives xs (.expression l a))
      (hk : t.kind = op.kind) (hb : Derives ys (.expression l.tighter b)) :
      Derives (xs ++ t :: ys) (.expression l (.binary op a b))
  | power {xs ys : List Token} {t : Token} {a b : Node} (ha : Derives xs (.expression .unary a))
      (hk : t.kind = .doubleStar) (hb : Derives ys (.expression .power b)) :
      Derives (xs ++ t :: ys) (.expression .power (.binary .pow a b))
  | unary {xs : List Token} {t : Token} {op : UnaryOp} {e : Node} (hk : t.kind = op.kind)
      (he : Derives xs (.expression .unary e)) :
      Derives (t :: xs) (.expression .unary (.unary op e))
  | member {xs : List Token} {t s : Token} {e : Node} (he : Derives xs (.expression .suffixed e))
      (hk : t.kind = .dot) (hs : s.kind = .name) :
      Derives (xs ++ [t, s]) (.expression .suffixed (.member e s.text))
  | call {xs ys : List Token} {t u : Token} {f : Node} {as : List Node}
      (hf : Derives xs (.expression .suffixed f)) (hk : t.kind = .leftParen)
      (has : Derives ys (.elements as)) (hu : u.kind = .rightParen) :
      Derives (xs ++ t :: ys ++ [u]) (.expression .suffixed (.call f as))
  | index {xs ys : List Token} {t u : Token} {a : Node} {is : List IndexItem}
      (ha : Derives xs (.expression .suffixed a)) (hk : t.kind = .leftBracket)
      (his : Derives ys (.items is)) (hu : u.kind = .rightBracket) :
      Derives (xs ++ t :: ys ++ [u]) (.expression .suffixed (.index a is))
  | name {t : Token} (hk : t.kind = .name) : Derives [t] (.expression .primary (.name t.text))
  | literal {t : Token} {l : Literal} (hl : l.Written t) :
      Derives [t] (.expression .primary (.literal l))
  | paren {xs : List Token} {t u : Token} {e : Node} (hk : t.kind = .leftParen)
      (he : Derives xs (.expression .boolean e)) (hu : u.kind = .rightParen) :
      Derives (t :: xs ++ [u]) (.expression .primary (.paren e))
  | list {xs : List Token} {t u : Token} {es : List Node} (hk : t.kind = .leftBracket)
      (hes : Derives xs (.elements es)) (hu : u.kind = .rightBracket) :
      Derives (t :: xs ++ [u]) (.expression .primary (.list es))
  | tighter {xs : List Token} {l : Tier} {e : Node} (he : Derives xs (.expression l.tighter e)) :
      Derives xs (.expression l e)
  | noElements : Derives [] (.elements [])
  | oneElement {xs : List Token} {e : Node} (he : Derives xs (.expression .boolean e)) :
      Derives xs (.elements [e])
  | moreElements {xs ys : List Token} {t : Token} {es : List Node} {e : Node} (hne : es ≠ [])
      (hes : Derives xs (.elements es)) (hk : t.kind = .comma)
      (he : Derives ys (.expression .boolean e)) : Derives (xs ++ t :: ys) (.elements (es ++ [e]))
  | absent : Derives [] (.bound none)
  | present {xs : List Token} {e : Node} (he : Derives xs (.expression .boolean e)) :
      Derives xs (.bound (some e))
  | ellipsis {t : Token} (hk : t.kind = .ellipsis) : Derives [t] (.item .ellipsis)
  | entry {xs : List Token} {e : Node} (he : Derives xs (.expression .boolean e)) :
      Derives xs (.item (.expr e))
  | full {t : Token} (hk : t.kind = .colon) : Derives [t] (.item .full)
  | range {xs ys : List Token} {t : Token} {a b : Option Node} (hab : a.isSome ∨ b.isSome)
      (ha : Derives xs (.bound a)) (hk : t.kind = .colon) (hb : Derives ys (.bound b)) :
      Derives (xs ++ t :: ys) (.item (.slice a b none false))
  | stepped {xs ys zs : List Token} {t u : Token} {a b c : Option Node}
      (ha : Derives xs (.bound a)) (hk : t.kind = .colon) (hb : Derives ys (.bound b))
      (hu : u.kind = .colon) (hc : Derives zs (.bound c)) :
      Derives (xs ++ t :: ys ++ u :: zs) (.item (.slice a b c true))
  | oneItem {xs : List Token} {i : IndexItem} (hi : Derives xs (.item i)) :
      Derives xs (.items [i])
  | moreItems {xs ys : List Token} {t : Token} {is : List IndexItem} {i : IndexItem}
      (his : Derives xs (.items is)) (hk : t.kind = .comma) (hi : Derives ys (.item i)) :
      Derives (xs ++ t :: ys) (.items (is ++ [i]))

/-- The productions of a line: an expression, or an assignment to a name, a member or an index. -/
inductive DerivesLine : List Token → Node → Prop where
  | expression {xs : List Token} {e : Node} (he : Derives xs (.expression .boolean e)) :
      DerivesLine xs e
  | assign {xs ys : List Token} {t : Token} {op : AssignOp} {e v : Node}
      (he : Derives xs (.expression .boolean e)) (ha : e.isAssignable) (hk : t.kind = op.kind)
      (hv : Derives ys (.expression .boolean v)) : DerivesLine (xs ++ t :: ys) (.assign op e v)

namespace Derives

variable {xs : List Token}

/-- An expression of a tighter tier is one of every looser tier. -/
theorem loosen {l l' : Tier} {e : Node} (h : Derives xs (.expression l' e))
    (hle : l.rank ≤ l'.rank) : Derives xs (.expression l e) := by
  induction hn : l'.rank - l.rank generalizing l with
  | zero =>
    have heq : l = l' := by
      have hrank : l.rank = l'.rank := by omega
      revert hrank
      cases l <;> cases l' <;> first | exact fun _ => rfl | exact fun h => absurd h (by decide)
    exact heq ▸ h
  | succ n ih =>
    have hlt : l.rank < 9 := by
      have : l'.rank ≤ 9 := by cases l' <;> decide
      omega
    have hnext := Tier.rank_tighter_of_lt hlt
    exact .tighter (ih (by omega) (by omega))

end Derives

end ShapeFault
