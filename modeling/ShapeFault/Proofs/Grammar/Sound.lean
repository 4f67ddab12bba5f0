import ShapeFault.Expr.Parser
import ShapeFault.Proofs.Grammar.Phrase

/-!
# What has been read is derivable

A `Reading` keeps the open constructs of a line and what may come next. `Opened xs cs` says which
tokens `xs` have opened the constructs `cs`, and `Reads xs r` that `xs` have led to the reading `r`.
Each token keeps this relation (`Reads.step`), so a line that is read to its end has a derivation
(`derivesLine_of_read`).

The invariant behind it is the order of the open operators: `Fits l cs` says that an expression of
tier `l` may become the operand that the innermost construct waits for. An operator is pushed only
where its own tier fits, hence closing the operators one after the other builds derivations of
looser and looser tiers.
-/

namespace ShapeFault

open Token (Kind)

namespace BinaryOp

/-- The tier of the left operand of an operator. -/
def leftTier : BinaryOp → Tier
  | pow => .unary
  | op => op.tier

/-- The tier of the right operand of an operator. -/
def rightTier : BinaryOp → Tier
  | pow => .power
  | op => op.tier.tighter

theorem rank_leftTier (op : BinaryOp) : op.leftTier.rank = op.closes := by
  cases op <;> rfl

theorem closes_le_seven (op : BinaryOp) : op.closes ≤ 7 := by
  cases op <;> decide

/-- An operator that waits although `op` closes others may take an expression of the tier of `op`
on its right. -/
theorem rank_rightTier_le {op op' : BinaryOp} (h : op'.binding < op.closes) :
    op'.rightTier.rank ≤ op.tier.rank := by
  revert h
  cases op' <;> cases op <;> decide

theorem kind_of_ofKind? {k : Kind} {op : BinaryOp} (h : ofKind? k = some op) : k = op.kind := by
  have := List.find?_some h
  simpa [eq_comm] using this

theorem leftTier_of_ne_pow {op : BinaryOp} (h : op ≠ pow) : op.leftTier = op.tier := by
  cases op <;> first | rfl | exact absurd rfl h

theorem rightTier_of_ne_pow {op : BinaryOp} (h : op ≠ pow) :
    op.rightTier = op.tier.tighter := by
  cases op <;> first | rfl | exact absurd rfl h

/-- The two operands of an operator make an expression of its tier. -/
theorem derives {xs ys : List Token} {t : Token} {op : BinaryOp} {a b : Node}
    (ha : Derives xs (.expression op.leftTier a)) (hk : t.kind = op.kind)
    (hb : Derives ys (.expression op.rightTier b)) :
    Derives (xs ++ t :: ys) (.expression op.tier (.binary op a b)) := by
  by_cases hop : op = .pow
  · subst hop
    exact .power ha hk hb
  · rw [leftTier_of_ne_pow hop] at ha
    rw [rightTier_of_ne_pow hop] at hb
    exact .chain hop rfl ha hk hb

end BinaryOp

theorem AssignOp.kind_of_ofKind? {k : Kind} {op : AssignOp} (h : ofKind? k = some op) :
    k = op.kind := by
  have := List.find?_some h
  simpa [eq_comm] using this

/-! ### The tokens of open constructs -/

/-- The tokens of elements that have been read so far, each with a comma behind it. -/
inductive BegunElements : List Token → List Node → Prop where
  | nil : BegunElements [] []
  | snoc {xs : List Token} {t : Token} {es : List Node} (hne : es ≠ [])
      (hes : Derives xs (.elements es)) (hk : t.kind = .comma) : BegunElements (xs ++ [t]) es

/-- The tokens of items that have been read so far, each with a comma behind it. -/
inductive BegunItems : List Token → List IndexItem → Prop where
  | nil : BegunItems [] []
  | snoc {xs : List Token} {t : Token} {is : List IndexItem} (his : Derives xs (.items is))
      (hk : t.kind = .comma) : BegunItems (xs ++ [t]) is

/-- The tokens of the item at hand that come before its part at hand. -/
inductive BegunItem : List Token → ItemPart → Prop where
  | first : BegunItem [] .first
  | stop {xs : List Token} {t : Token} {a : Option Node} (ha : Derives xs (.bound a))
      (hk : t.kind = .colon) : BegunItem (xs ++ [t]) (.stop a)
  | step {xs ys : List Token} {t u : Token} {a b : Option Node} (ha : Derives xs (.bound a))
      (hk : t.kind = .colon) (hb : Derives ys (.bound b)) (hu : u.kind = .colon) :
      BegunItem (xs ++ t :: ys ++ [u]) (.step a b)

/-- An expression of tier `l` may become the operand that the innermost construct waits for. -/
def Fits (l : Tier) : List Construct → Prop
  | .unary _ :: _ => Tier.unary.rank ≤ l.rank
  | .binary op _ :: _ => op.rightTier.rank ≤ l.rank
  | _ => True

/-- The innermost construct is no operator that binds at least as tightly as `binding`. -/
def Settled (binding : Nat) : List Construct → Prop
  | .unary _ :: _ => False
  | .binary op _ :: _ => op.binding < binding
  | _ => True

/-- `Opened xs cs` says that the tokens `xs` have opened the constructs `cs`. -/
inductive Opened : List Token → List Construct → Prop where
  | nil : Opened [] []
  | assign {xs : List Token} {t : Token} {op : AssignOp} {e : Node}
      (he : Derives xs (.expression .boolean e)) (ha : e.isAssignable) (hk : t.kind = op.kind) :
      Opened (xs ++ [t]) [.assign op e]
  | unary {xs : List Token} {cs : List Construct} {t : Token} {op : UnaryOp} (hcs : Opened xs cs)
      (hk : t.kind = op.kind) : Opened (xs ++ [t]) (.unary op :: cs)
  | binary {xs ys : List Token} {cs : List Construct} {t : Token} {op : BinaryOp} {a : Node}
      (hcs : Opened xs cs) (hfit : Fits op.tier cs)
      (ha : Derives ys (.expression op.leftTier a)) (hk : t.kind = op.kind) :
      Opened (xs ++ ys ++ [t]) (.binary op a :: cs)
  | paren {xs : List Token} {cs : List Construct} {t : Token} (hcs : Opened xs cs)
      (hk : t.kind = .leftParen) : Opened (xs ++ [t]) (.paren :: cs)
  | call {xs ys zs : List Token} {cs : List Construct} {t : Token} {f : Node} {as : List Node}
      (hcs : Opened xs cs) (hf : Derives ys (.expression .suffixed f)) (hk : t.kind = .leftParen)
      (has : BegunElements zs as) : Opened (xs ++ ys ++ t :: zs) (.call f as :: cs)
  | list {xs zs : List Token} {cs : List Construct} {t : Token} {es : List Node}
      (hcs : Opened xs cs) (hk : t.kind = .leftBracket) (hes : BegunElements zs es) :
      Opened (xs ++ t :: zs) (.list es :: cs)
  | index {xs ys zs ws : List Token} {cs : List Construct} {t : Token} {a : Node}
      {is : List IndexItem} {part : ItemPart} (hcs : Opened xs cs)
      (ha : Derives ys (.expression .suffixed a)) (hk : t.kind = .leftBracket)
      (his : BegunItems zs is) (hpart : BegunItem ws part) :
      Opened (xs ++ ys ++ t :: zs ++ ws) (.index a is part :: cs)

/-- `Reads xs r` says that the tokens `xs` have led to the reading `r`. -/
inductive Reads : List Token → Reading → Prop where
  | operand {xs : List Token} {cs : List Construct} (hcs : Opened xs cs) : Reads xs ⟨cs, .operand⟩
  | operator {xs ys : List Token} {cs : List Construct} {e : Node} (hcs : Opened xs cs)
      (he : Derives ys (.expression .suffixed e)) : Reads (xs ++ ys) ⟨cs, .operator e⟩
  | member {xs ys : List Token} {cs : List Construct} {t : Token} {e : Node} (hcs : Opened xs cs)
      (he : Derives ys (.expression .suffixed e)) (hk : t.kind = .dot) :
      Reads (xs ++ ys ++ [t]) ⟨cs, .member e⟩
  | separator {xs ys : List Token} {cs : List Construct} {a : Node} {is : List IndexItem}
      {i : IndexItem} (hcs : Opened xs (.index a is .first :: cs)) (hi : Derives ys (.item i)) :
      Reads (xs ++ ys) ⟨.index a is .first :: cs, .separator i⟩

/-! ### Closing operators -/

/-- What is left once operators have been closed: constructs that have been opened by the front of
the tokens, and an expression that stands for the rest of them and fits there. -/
structure Closed (binding : Nat) (xs : List Token) (cs : List Construct) (e : Node) : Prop where
  split : ∃ us vs l, xs = us ++ vs ∧ Opened us cs ∧ Derives vs (.expression l e) ∧ Fits l cs ∧
    binding ≤ l.rank
  settled : Settled binding cs

theorem fits_of_settled {op : BinaryOp} {cs : List Construct} (h : Settled op.closes cs) :
    Fits op.tier cs := by
  match cs with
  | .binary op' _ :: _ => exact BinaryOp.rank_rightTier_le h
  | .unary _ :: _ => exact h.elim
  | [] | .assign _ _ :: _ | .paren :: _ | .call _ _ :: _ | .list _ :: _ | .index _ _ _ :: _ =>
    trivial

theorem fits_of_seven_le {l : Tier} (h : 7 ≤ l.rank) (cs : List Construct) : Fits l cs := by
  match cs with
  | .binary op _ :: _ =>
    have : op.rightTier.rank ≤ 6 := by cases op <;> decide
    simp only [Fits]
    omega
  | .unary _ :: _ => exact h
  | [] | .assign _ _ :: _ | .paren :: _ | .call _ _ :: _ | .list _ :: _ | .index _ _ _ :: _ =>
    trivial

/-- Closing operators keeps the tokens, and each operator that is closed is a production. -/
theorem Opened.closed {binding : Nat} {us vs : List Token} {cs : List Construct} {e : Node}
    {l : Tier} (hcs : Opened us cs) (hb : binding ≤ 7) (he : Derives vs (.expression l e))
    (hfit : Fits l cs) (hle : binding ≤ l.rank) :
    Closed binding (us ++ vs) (closeTighter binding cs e).1 (closeTighter binding cs e).2 := by
  -- from the innermost construct outwards: an operator that is closed hands on a looser expression
  induction hcs generalizing vs e l with
  | @unary xs cs t op hcs hk ih =>
    have hun : Derives (t :: vs) (.expression .unary (.unary op e)) := .unary hk (he.loosen hfit)
    have hfit' : Fits .unary cs := fits_of_seven_le (by decide) cs
    simpa [closeTighter] using ih hun hfit' hb
  | @binary xs ys cs t op a hcs hop ha hk ih =>
    by_cases hbind : binding ≤ op.binding
    · have hbin : Derives (ys ++ t :: vs) (.expression op.tier (.binary op a e)) :=
        BinaryOp.derives ha hk (he.loosen hfit)
      have hrank : binding ≤ op.tier.rank := by rw [op.rank_tier]; exact hbind
      simpa [closeTighter, hbind] using ih hbin hop hrank
    · simp only [closeTighter, hbind, if_false]
      exact ⟨⟨_, vs, l, rfl, .binary hcs hop ha hk, he, hfit, hle⟩, Nat.lt_of_not_le hbind⟩
  | nil => exact ⟨⟨_, vs, l, rfl, .nil, he, hfit, hle⟩, trivial⟩
  | assign ht ha hk => exact ⟨⟨_, vs, l, rfl, .assign ht ha hk, he, hfit, hle⟩, trivial⟩
  | paren hcs hk => exact ⟨⟨_, vs, l, rfl, .paren hcs hk, he, hfit, hle⟩, trivial⟩
  | call hcs hf hk has => exact ⟨⟨_, vs, l, rfl, .call hcs hf hk has, he, hfit, hle⟩, trivial⟩
  | list hcs hk hes => exact ⟨⟨_, vs, l, rfl, .list hcs hk hes, he, hfit, hle⟩, trivial⟩
  | index hcs ha hk his hpart =>
    exact ⟨⟨_, vs, l, rfl, .index hcs ha hk his hpart, he, hfit, hle⟩, trivial⟩

/-! ### Items of an index -/

namespace BegunItem

variable {xs ys : List Token} {part : ItemPart} {o : Option Node}

/-- The part at hand completes the item. -/
theorem complete {i : IndexItem} (h : BegunItem xs part) (ho : Derives ys (.bound o))
    (hi : part.complete o = some i) : Derives (xs ++ ys) (.item i) := by
  cases h with
  | first =>
    cases ho with
    | absent => cases hi
    | present he =>
      obtain rfl : IndexItem.expr _ = i := by simpa [ItemPart.complete] using hi
      exact .entry he
  | @stop xs t a ha hk =>
    match a, o with
    | none, none =>
      cases ha
      cases ho
      obtain rfl : IndexItem.full = i := by simpa [ItemPart.complete] using hi
      exact .full hk
    | some a, o =>
      obtain rfl : IndexItem.slice (some a) o none false = i := by
        simpa [ItemPart.complete] using hi
      simpa using Derives.range (Or.inl rfl) ha hk ho
    | none, some b =>
      obtain rfl : IndexItem.slice none (some b) none false = i := by
        simpa [ItemPart.complete] using hi
      simpa using Derives.range (Or.inr rfl) ha hk ho
  | @step xs zs t u a b ha hk hb hu =>
    obtain rfl : IndexItem.slice a b o true = i := by simpa [ItemPart.complete] using hi
    simpa using Derives.stepped ha hk hb hu ho

/-- A colon behind the part at hand begins the next part. -/
theorem next {part' : ItemPart} {t : Token} (h : BegunItem xs part) (ho : Derives ys (.bound o))
    (hn : part.next o = some part') (ht : t.kind = .colon) : BegunItem (xs ++ ys ++ [t]) part' := by
  cases h with
  | first =>
    obtain rfl : ItemPart.stop o = part' := by simpa [ItemPart.next] using hn
    exact .stop ho ht
  | stop ha hk =>
    obtain rfl : ItemPart.step _ o = part' := by simpa [ItemPart.next] using hn
    simpa using BegunItem.step ha hk ho ht
  | step => cases hn

end BegunItem

namespace Opened

variable {xs : List Token} {cs : List Construct}

/-- An open index, taken apart into its beginning and the item at hand. -/
theorem index_first {a : Node} {is : List IndexItem} {part : ItemPart}
    (h : Opened xs (.index a is part :: cs)) :
    ∃ us ws, xs = us ++ ws ∧ Opened us (.index a is .first :: cs) ∧ BegunItem ws part := by
  cases h with
  | @index us ys zs ws _ t _ _ _ hcs ha hk his hpart =>
    refine ⟨us ++ ys ++ t :: zs, ws, rfl, ?_, hpart⟩
    simpa using Opened.index hcs ha hk his .first

/-- The items of an index with one more item. -/
theorem items {ys zs : List Token} {is : List IndexItem} {i : IndexItem} (h : BegunItems ys is)
    (hi : Derives zs (.item i)) : Derives (ys ++ zs) (.items (is ++ [i])) := by
  cases h with
  | nil => exact .oneItem hi
  | snoc his hk => simpa using Derives.moreItems his hk hi

/-- The elements of a call or a list with one more element. -/
theorem elements {ys zs : List Token} {es : List Node} {e : Node} (h : BegunElements ys es)
    (he : Derives zs (.expression .boolean e)) : Derives (ys ++ zs) (.elements (es ++ [e])) := by
  cases h with
  | nil => exact .oneElement he
  | snoc hne hes hk => simpa using Derives.moreElements hne hes hk he

end Opened

/-! ### One token -/

namespace Reads

variable {us vs : List Token} {cs : List Construct} {t : Token} {r : Reading}

/-- Behind a complete item of an index. -/
theorem afterItem {a : Node} {is : List IndexItem} {i : IndexItem}
    (hcs : Opened us (.index a is .first :: cs)) (hi : Derives vs (.item i))
    (h : Reading.afterItem a is cs i t.kind = .ok r) : Reads (us ++ vs ++ [t]) r := by
  cases hcs with
  | @index xs ys zs ws _ u _ _ _ hcs ha hk his hpart =>
    cases hpart
    have his' := Opened.items his hi
    unfold Reading.afterItem at h
    split at h
    · rename_i hcomma
      cases h
      have := Opened.index hcs ha hk (.snoc his' hcomma) .first
      exact .operand (by simpa using this)
    · rename_i hclose
      cases h
      have := Reads.operator hcs (.index ha hk his' hclose)
      simpa using this
    · cases h

/-- Behind a part of an item of an index. -/
theorem afterPart {a : Node} {is : List IndexItem} {part : ItemPart} {o : Option Node}
    (hcs : Opened us (.index a is part :: cs)) (ho : Derives vs (.bound o))
    (h : Reading.afterPart a is part cs o t.kind = .ok r) : Reads (us ++ vs ++ [t]) r := by
  obtain ⟨us, ws, rfl, hfirst, hpart⟩ := hcs.index_first
  unfold Reading.afterPart at h
  split at h
  · rename_i next _ hnext hcolon
    cases h
    have hpart' := hpart.next ho hnext hcolon
    cases hfirst with
    | @index xs ys zs _ _ u _ _ _ houter ha hk his hnil =>
      cases hnil
      have := Opened.index houter ha hk his hpart'
      exact .operand (by simpa using this)
  · rename_i item _ _ hitem _
    have := Reads.afterItem hfirst (hpart.complete ho hitem) h
    simpa using this
  · cases h

/-- Where an operand is due and the token cannot start one. -/
theorem withoutOperand (hcs : Opened us cs) (h : Reading.withoutOperand cs t.kind = .ok r) :
    Reads (us ++ [t]) r := by
  unfold Reading.withoutOperand at h
  split at h
  case h_1 hclose =>
    cases h
    cases hcs with
    | call hcs hf hk has =>
      -- the call has no arguments, so no comma stands before the parenthesis
      cases has with
      | nil =>
        have := Reads.operator hcs (.call hf hk .noElements hclose)
        simpa using this
      | snoc hne => exact absurd rfl hne
  case h_2 hclose =>
    cases h
    cases hcs with
    | list hcs hk hes =>
      cases hes with
      | nil =>
        have := Reads.operator hcs (.loosen (.list hk .noElements hclose) (by decide))
        simpa using this
      | snoc hne => exact absurd rfl hne
  case h_3 hdots =>
    cases h
    exact .separator hcs (.ellipsis hdots)
  case h_11 | h_12 => cases h
  -- in an index a bound may be absent
  all_goals
    rename_i hkind
    have := Reads.afterPart hcs .absent (by rw [hkind]; exact h)
    simpa using this

/-- Where an operand is due. -/
theorem stepOperand (hcs : Opened us cs) (h : Reading.stepOperand cs t = .ok r) :
    Reads (us ++ [t]) r := by
  unfold Reading.stepOperand at h
  split at h
  case h_1 hk =>
    cases h
    exact .operator hcs (.loosen (.name hk) (by decide))
  case h_2 hk =>
    split at h
    · rename_i l hl
      cases h
      exact .operator hcs (.loosen (.literal (.number hk hl)) (by decide))
    · cases h
  case h_3 hk =>
    cases h
    exact .operator hcs (.loosen (.literal (.string hk)) (by decide))
  case h_4 hk =>
    cases h
    exact .operator hcs (.loosen (.literal (.trueWord hk)) (by decide))
  case h_5 hk =>
    cases h
    exact .operator hcs (.loosen (.literal (.falseWord hk)) (by decide))
  case h_6 hk =>
    cases h
    exact .operator hcs (.loosen (.literal (.noneWord hk)) (by decide))
  case h_7 hk =>
    cases h
    exact .operand (.unary hcs hk)
  case h_8 hk =>
    cases h
    exact .operand (.unary hcs hk)
  case h_9 hk =>
    cases h
    exact .operand (.paren hcs hk)
  case h_10 hk =>
    cases h
    exact .operand (by simpa using Opened.list hcs hk .nil)
  case h_11 => exact withoutOperand hcs h

/-- Behind an expression that no operator extends. -/
theorem afterExpression {e : Node} (hcs : Opened us cs) (he : Derives vs (.expression .boolean e))
    (h : Reading.afterExpression cs e t.kind = .ok r) : Reads (us ++ vs ++ [t]) r := by
  unfold Reading.afterExpression at h
  split at h
  case h_1 hclose =>
    cases h
    cases hcs with
    | paren hcs hk =>
      have := Reads.operator hcs (.loosen (.paren hk he hclose) (by decide))
      simpa using this
  case h_2 f as cs _ hcomma =>
    cases h
    cases hcs with
    | call hcs hf hk has =>
      have := Opened.call hcs hf hk (.snoc (by simp) (Opened.elements has he) hcomma)
      exact .operand (by simpa using this)
  case h_3 hclose =>
    cases h
    cases hcs with
    | call hcs hf hk has =>
      have := Reads.operator hcs (.call hf hk (Opened.elements has he) hclose)
      simpa using this
  case h_4 hcomma =>
    cases h
    cases hcs with
    | list hcs hk hes =>
      have := Opened.list hcs hk (.snoc (by simp) (Opened.elements hes he) hcomma)
      exact .operand (by simpa using this)
  case h_5 hclose =>
    cases h
    cases hcs with
    | list hcs hk hes =>
      have := Reads.operator hcs (.loosen (.list hk (Opened.elements hes he) hclose) (by decide))
      simpa using this
  case h_6 => exact afterPart hcs (.present he) h
  case h_7 =>
    cases hcs
    split at h
    · rename_i op hop
      split at h
      · rename_i ha
        cases h
        exact .operand (.assign he ha (AssignOp.kind_of_ofKind? hop))
      · cases h
    · cases h
  case h_8 => cases h

/-- Behind an expression that the token may extend. -/
theorem stepOperator {e : Node} (hcs : Opened us cs) (he : Derives vs (.expression .suffixed e))
    (h : Reading.stepOperator cs e t = .ok r) : Reads (us ++ vs ++ [t]) r := by
  have hfit : Fits .suffixed cs := fits_of_seven_le (by decide) cs
  unfold Reading.stepOperator at h
  split at h
  case h_1 hk =>
    cases h
    exact .member hcs he hk
  case h_2 hk =>
    cases h
    exact .operand (by simpa using Opened.call hcs he hk .nil)
  case h_3 hk =>
    cases h
    exact .operand (by simpa using Opened.index hcs he hk .nil .first)
  case h_4 =>
    split at h
    · rename_i op hop
      cases h
      -- what `op` closes is its left operand
      have hclosed := hcs.closed op.closes_le_seven he hfit
        (Nat.le_trans op.closes_le_seven (by decide))
      obtain ⟨us', vs', l, hsplit, hcs', he', -, hle⟩ := hclosed.split
      rw [hsplit]
      have hleft := he'.loosen (by rw [op.rank_leftTier]; exact hle)
      exact .operand
        (.binary hcs' (fits_of_settled hclosed.settled) hleft (BinaryOp.kind_of_ofKind? hop))
    · -- no operator, so the open ones are closed up to the next bracket
      have hclosed := hcs.closed (Nat.zero_le 7) he hfit (Nat.zero_le _)
      obtain ⟨us', vs', l, hsplit, hcs', he', -, -⟩ := hclosed.split
      rw [hsplit]
      exact afterExpression hcs' (he'.loosen l.boolean_rank_le) h

/-- **One token.** What has been read stays derivable. -/
theorem step {xs : List Token} {s : Reading} (hs : Reads xs s) (h : s.step t = .ok r) :
    Reads (xs ++ [t]) r := by
  cases hs with
  | operand hcs => exact stepOperand hcs h
  | operator hcs he => exact stepOperator hcs he h
  | member hcs he hk =>
    simp only [Reading.step] at h
    split at h
    · rename_i hname
      cases h
      have := Reads.operator hcs (.member he hk hname)
      simpa using this
    · cases h
  | separator hcs hi => exact afterItem hcs hi h

/-- The end of the line. -/
theorem finish {xs : List Token} {s : Reading} {e : Node} (hs : Reads xs s)
    (h : s.finish = .ok e) : DerivesLine xs e := by
  cases hs with
  | @operator us vs cs e' hcs he =>
    have hclosed := hcs.closed (Nat.zero_le 7) he (fits_of_seven_le (by decide) cs)
      (Nat.zero_le _)
    obtain ⟨us', vs', l, hsplit, hcs', he', -, -⟩ := hclosed.split
    have hbool := he'.loosen l.boolean_rank_le
    rw [hsplit]
    simp only [Reading.finish] at h
    split at h
    · rename_i heq
      cases h
      rw [heq] at hcs' hbool
      cases hcs'
      exact .expression hbool
    · rename_i heq
      cases h
      rw [heq] at hcs' hbool
      cases hcs' with
      | assign ht ha hk => simpa using DerivesLine.assign ht ha hk hbool
    · cases h
  | operand | member | separator => cases h

/-- All tokens that are left. -/
theorem read {xs ts : List Token} {s : Reading} {e : Node} (hs : Reads xs s)
    (h : TokenLine.read s ts = .ok e) : DerivesLine (xs ++ ts) e := by
  induction ts generalizing xs s with
  | nil =>
    simp only [TokenLine.read] at h
    cases hf : s.finish with
    | ok e' =>
      rw [hf] at h
      cases h
      simpa using hs.finish hf
    | error _ =>
      rw [hf] at h
      cases h
  | cons t ts ih =>
    simp only [TokenLine.read] at h
    split at h
    · rename_i s' hs'
      simpa using ih (hs.step hs') h
    · cases h

end Reads

/-- **Soundness.** The tree of a line that is read to its end is derivable from its tokens. -/
theorem derivesLine_of_read {ts : List Token} {e : Node}
    (h : TokenLine.read .start ts = .ok e) : DerivesLine ts e := by
  simpa using (Reads.operand .nil).read h

end ShapeFault
