import ShapeFault.Proofs.Grammar.Sound

/-!
# What is derivable is read

The tokens of a phrase, read where the phrase is due, lead to a reading that goes on as if the
phrase were there in one piece. For an expression this is `Yields`: some operators of the expression
may still be open, but closing the operators that bind at least as tightly as any given number,
down to the tier of the expression, leaves the same constructs and the same node as for the
expression itself. `Phrase.Complete` says it for every kind of phrase, and an induction over the
productions proves it (`Derives.complete`).

With the converse this gives `read_start_eq_ok_iff`: a line is read to a tree exactly if the tree is
derivable from its tokens. Hence no line has two trees (`DerivesLine.unique`).
-/

namespace ShapeFault

open Token (Kind)

/-! ### Runs of tokens -/

/-- `Reaches r ts s` says that the tokens `ts`, taken one after the other, lead from `r` to `s`. -/
inductive Reaches : Reading → List Token → Reading → Prop where
  | refl (r : Reading) : Reaches r [] r
  | head {r s u : Reading} {t : Token} {ts : List Token} (h : r.step t = .ok s)
      (hs : Reaches s ts u) : Reaches r (t :: ts) u

namespace Reaches

variable {r s u : Reading} {xs ys : List Token} {t : Token}

theorem trans (h : Reaches r xs s) (h' : Reaches s ys u) : Reaches r (xs ++ ys) u := by
  induction h with
  | refl => exact h'
  | head ht _ ih => exact .head ht (ih h')

theorem single (h : r.step t = .ok s) : Reaches r [t] s :=
  .head h (.refl s)

theorem snoc (h : Reaches r xs s) (ht : s.step t = .ok u) : Reaches r (xs ++ [t]) u :=
  h.trans (single ht)

/-- Reading goes on where a run of tokens has led to. -/
theorem read_append (h : Reaches r xs s) (ys : List Token) :
    TokenLine.read r (xs ++ ys) = TokenLine.read s ys := by
  induction h with
  | refl => rfl
  | head ht _ ih => simp only [List.cons_append, TokenLine.read, ht, ih]

/-- Reading ends where a run of tokens has led to. -/
theorem read (h : Reaches r xs s) : TokenLine.read r xs = s.finish.mapError fun e => ([], e) := by
  have := h.read_append []
  rwa [List.append_nil] at this

end Reaches

/-! ### Closing operators -/

theorem closeTighter_of_settled {binding : Nat} {cs : List Construct} (h : Settled binding cs)
    (e : Node) : closeTighter binding cs e = (cs, e) := by
  match cs with
  | .unary _ :: _ => exact h.elim
  | .binary op _ :: _ =>
    have : ¬ binding ≤ op.binding := Nat.not_le_of_lt h
    simp only [closeTighter, this, if_false]
  | [] | .assign _ _ :: _ | .paren :: _ | .call _ _ :: _ | .list _ :: _ | .index _ _ _ :: _ => rfl

theorem Settled.mono {b b' : Nat} {cs : List Construct} (h : Settled b cs) (hle : b ≤ b') :
    Settled b' cs := by
  match cs with
  | .unary _ :: _ => exact h.elim
  | .binary _ _ :: _ => exact Nat.lt_of_lt_of_le h hle
  | [] | .assign _ _ :: _ | .paren :: _ | .call _ _ :: _ | .list _ :: _ | .index _ _ _ :: _ =>
    trivial

/-- The binding from which on the operators of a tier close the open ones. -/
def Tier.closes : Tier → Nat
  | power => 7
  | l => l.rank

/-- An expression of tier `l` can be read where `cs` are open: its own operators close none of
them. -/
def Waits (l : Tier) (cs : List Construct) : Prop :=
  l.rank ≤ 6 → Settled l.closes cs

theorem Waits.tighter {l : Tier} {cs : List Construct} (h : Waits l cs) : Waits l.tighter cs := by
  intro hle
  have hl : l.rank ≤ 6 := Nat.le_trans l.rank_le_rank_tighter hle
  refine (h hl).mono ?_
  cases l <;> decide

theorem waits_of_settled_zero {cs : List Construct} (h : Settled 0 cs) (l : Tier) : Waits l cs :=
  fun _ => h.mono (Nat.zero_le _)

/-- The right operand of an operator can be read behind it. -/
theorem waits_rightTier (op : BinaryOp) (a : Node) (cs : List Construct) :
    Waits op.rightTier (.binary op a :: cs) := by
  intro _
  change op.binding < op.rightTier.closes
  cases op <;> decide

/-- **The tokens `xs` yield the expression `e`** where an operand is due and `cs` are open. -/
def Yields (cs : List Construct) (xs : List Token) (l : Tier) (e : Node) : Prop :=
  ∃ cs' e', Reaches ⟨cs, .operand⟩ xs ⟨cs', .operator e'⟩ ∧
    ∀ binding ≤ l.rank, closeTighter binding cs' e' = closeTighter binding cs e

/-! ### Single tokens -/

/-- The kinds of tokens that extend no expression. -/
def Ends (k : Kind) : Prop :=
  k ≠ .dot ∧ k ≠ .leftParen ∧ k ≠ .leftBracket ∧ BinaryOp.ofKind? k = none

instance (k : Kind) : Decidable (Ends k) :=
  inferInstanceAs (Decidable (_ ∧ _))

theorem step_of_ends {cs : List Construct} {e : Node} {t : Token} (h : Ends t.kind) :
    (⟨cs, .operator e⟩ : Reading).step t =
      Reading.afterExpression (closeTighter 0 cs e).1 (closeTighter 0 cs e).2 t.kind := by
  obtain ⟨hdot, hparen, hbracket, hbin⟩ := h
  simp only [Reading.step, Reading.stepOperator, hbin]

theorem step_binary {cs : List Construct} {e : Node} {t : Token} {op : BinaryOp}
    (h : t.kind = op.kind) :
    (⟨cs, .operator e⟩ : Reading).step t =
      .ok ⟨.binary op (closeTighter op.closes cs e).2 :: (closeTighter op.closes cs e).1,
        .operand⟩ := by
  have hne : op.kind ≠ .dot ∧ op.kind ≠ .leftParen ∧ op.kind ≠ .leftBracket := by
    cases op <;> decide
  obtain ⟨hdot, hparen, hbracket⟩ := hne
  simp only [Reading.step, Reading.stepOperator, h, op.ofKind?_kind]

/-- Behind an expression in brackets, a token that extends no expression is taken by the bracket. -/
theorem Yields.step {cs : List Construct} {xs : List Token} {l : Tier} {e : Node}
    (h : Yields cs xs l e) (hcs : Settled 0 cs) :
    ∃ r, Reaches ⟨cs, .operand⟩ xs r ∧
      ∀ t : Token, Ends t.kind → r.step t = Reading.afterExpression cs e t.kind := by
  obtain ⟨cs', e', hreach, hclose⟩ := h
  refine ⟨_, hreach, fun t ht => ?_⟩
  rw [step_of_ends ht, hclose 0 (Nat.zero_le _), closeTighter_of_settled hcs]

/-! ### The run of a phrase -/

/-- What reading the tokens of a phrase leads to. A tight expression leads to its node and leaves
the open constructs alone; every other phrase is described by how the reading goes on behind it. -/
def Phrase.Complete (xs : List Token) : Phrase → Prop
  | .expression l e =>
    (Tier.suffixed.rank ≤ l.rank → ∀ cs, Reaches ⟨cs, .operand⟩ xs ⟨cs, .operator e⟩) ∧
      ∀ cs, Waits l cs → Yields cs xs l e
  | .elements es =>
    (∀ f cs, ∃ r, Reaches ⟨.call f [] :: cs, .operand⟩ xs r ∧
      (es ≠ [] → ∀ t : Token, t.kind = .comma → r.step t = .ok ⟨.call f es :: cs, .operand⟩) ∧
      ∀ t : Token, t.kind = .rightParen → r.step t = .ok ⟨cs, .operator (.call f es)⟩) ∧
    ∀ cs, ∃ r, Reaches ⟨.list [] :: cs, .operand⟩ xs r ∧
      (es ≠ [] → ∀ t : Token, t.kind = .comma → r.step t = .ok ⟨.list es :: cs, .operand⟩) ∧
      ∀ t : Token, t.kind = .rightBracket → r.step t = .ok ⟨cs, .operator (.list es)⟩
  | .bound o =>
    ∀ a is part cs, ∃ r, Reaches ⟨.index a is part :: cs, .operand⟩ xs r ∧
      ∀ t : Token, t.kind = .colon ∨ t.kind = .comma ∨ t.kind = .rightBracket →
        r.step t = Reading.afterPart a is part cs o t.kind
  | .item i =>
    ∀ a is cs, ∃ r, Reaches ⟨.index a is .first :: cs, .operand⟩ xs r ∧
      ∀ t : Token, t.kind = .comma ∨ t.kind = .rightBracket →
        r.step t = Reading.afterItem a is cs i t.kind
  | .items is =>
    ∀ a cs, ∃ r, Reaches ⟨.index a [] .first :: cs, .operand⟩ xs r ∧
      (∀ t : Token, t.kind = .comma → r.step t = .ok ⟨.index a is .first :: cs, .operand⟩) ∧
      ∀ t : Token, t.kind = .rightBracket → r.step t = .ok ⟨cs, .operator (.index a is)⟩

namespace Phrase.Complete

variable {xs ys zs : List Token} {t u : Token} {l : Tier} {e : Node}

/-- A tight expression is complete if it leads to its node. -/
theorem of_reaches (h : ∀ cs, Reaches ⟨cs, .operand⟩ xs ⟨cs, .operator e⟩) :
    Complete xs (.expression l e) :=
  ⟨fun _ => h, fun cs _ => ⟨cs, e, h cs, fun _ _ => rfl⟩⟩

theorem reaches (h : Complete xs (.expression .suffixed e)) (cs : List Construct) :
    Reaches ⟨cs, .operand⟩ xs ⟨cs, .operator e⟩ :=
  h.1 (Nat.le_refl _) cs

/-- An expression in brackets, up to the token behind it. -/
theorem expression_step (h : Complete xs (.expression .boolean e)) (cs : List Construct)
    (hcs : Settled 0 cs) :
    ∃ r, Reaches ⟨cs, .operand⟩ xs r ∧
      ∀ t : Token, Ends t.kind → r.step t = Reading.afterExpression cs e t.kind :=
  (h.2 cs (waits_of_settled_zero hcs _)).step hcs

/-- The operators of a left operand are closed by the operator behind it, and those of a right
operand together with it. -/
theorem binary {op : BinaryOp} {a b : Node} (ha : Complete xs (.expression op.leftTier a))
    (hk : t.kind = op.kind) (hb : Complete ys (.expression op.rightTier b)) :
    Complete (xs ++ t :: ys) (.expression op.tier (.binary op a b)) := by
  have hrank : op.tier.rank ≤ 6 := by cases op <;> decide
  refine ⟨fun h => absurd (Nat.le_trans h hrank) (by decide), fun cs hcs => ?_⟩
  have hsettled : Settled op.closes cs := by
    have : op.tier.closes = op.closes := by cases op <;> rfl
    exact this ▸ hcs hrank
  have hwaits : Waits op.leftTier cs := by
    intro hle
    have : op.leftTier.closes = op.closes := by
      revert hle
      cases op <;> decide
    exact this ▸ hsettled
  -- `op` closes the left operand before it is pushed, and none of the operators further out
  obtain ⟨csa, a', hreach, hclose⟩ := ha.2 cs hwaits
  obtain ⟨csb, b', hreach', hclose'⟩ := hb.2 (.binary op a :: cs) (waits_rightTier op a cs)
  have hclosed : closeTighter op.closes csa a' = (cs, a) := by
    rw [hclose _ (Nat.le_of_eq op.rank_leftTier.symm), closeTighter_of_settled hsettled]
  have hstep : (⟨csa, .operator a'⟩ : Reading).step t = .ok ⟨.binary op a :: cs, .operand⟩ := by
    rw [step_binary hk, hclosed]
  refine ⟨csb, b', hreach.trans (.head hstep hreach'), fun binding hle => ?_⟩
  -- whatever closes `op` closes its right operand first
  have hright : op.tier.rank ≤ op.rightTier.rank := by cases op <;> decide
  have hbind : binding ≤ op.binding := by rw [← op.rank_tier]; exact hle
  rw [hclose' _ (Nat.le_trans hle hright)]
  simp only [closeTighter, hbind, if_true]

/-- A sign waits for its operand, and every operator behind closes it. -/
theorem unary {op : UnaryOp} (hk : t.kind = op.kind) (he : Complete xs (.expression .unary e)) :
    Complete (t :: xs) (.expression .unary (.unary op e)) := by
  refine ⟨fun h => absurd h (by decide), fun cs _ => ?_⟩
  have hwaits : Waits .unary (.unary op :: cs) := fun h => absurd h (by decide)
  obtain ⟨cs', e', hreach, hclose⟩ := he.2 (.unary op :: cs) hwaits
  have hstep : (⟨cs, .operand⟩ : Reading).step t = .ok ⟨.unary op :: cs, .operand⟩ := by
    cases op <;> simp [Reading.step, Reading.stepOperand, hk, UnaryOp.kind]
  refine ⟨cs', e', .head hstep hreach, fun binding hle => ?_⟩
  rw [hclose binding hle]
  rfl

theorem tighter (h : Complete xs (.expression l.tighter e)) : Complete xs (.expression l e) := by
  refine ⟨fun hle => h.1 (Nat.le_trans hle l.rank_le_rank_tighter), fun cs hcs => ?_⟩
  obtain ⟨cs', e', hreach, hclose⟩ := h.2 cs hcs.tighter
  exact ⟨cs', e', hreach, fun b hb => hclose b (Nat.le_trans hb l.rank_le_rank_tighter)⟩

theorem member {s : Token} (h : Complete xs (.expression .suffixed e)) (hk : t.kind = .dot)
    (hs : s.kind = .name) : Complete (xs ++ [t, s]) (.expression l (.member e s.text)) := by
  refine of_reaches fun cs => (h.reaches cs).trans ?_
  have hdot : (⟨cs, .operator e⟩ : Reading).step t = .ok ⟨cs, .member e⟩ := by
    simp [Reading.step, Reading.stepOperator, hk]
  have hname : (⟨cs, .member e⟩ : Reading).step s = .ok ⟨cs, .operator (.member e s.text)⟩ := by
    simp [Reading.step, hs]
  exact .head hdot (.single hname)

theorem call {f : Node} {as : List Node} (hf : Complete xs (.expression .suffixed f))
    (hk : t.kind = .leftParen) (has : Complete ys (.elements as)) (hu : u.kind = .rightParen) :
    Complete (xs ++ t :: ys ++ [u]) (.expression l (.call f as)) := by
  refine of_reaches fun cs => ?_
  obtain ⟨r, hreach, -, hclose⟩ := has.1 f cs
  have hopen : (⟨cs, .operator f⟩ : Reading).step t = .ok ⟨.call f [] :: cs, .operand⟩ := by
    simp [Reading.step, Reading.stepOperator, hk]
  exact ((hf.reaches cs).trans (.head hopen hreach)).snoc (hclose u hu)

theorem index {a : Node} {is : List IndexItem} (ha : Complete xs (.expression .suffixed a))
    (hk : t.kind = .leftBracket) (his : Complete ys (.items is)) (hu : u.kind = .rightBracket) :
    Complete (xs ++ t :: ys ++ [u]) (.expression l (.index a is)) := by
  refine of_reaches fun cs => ?_
  obtain ⟨r, hreach, -, hclose⟩ := his a cs
  have hopen : (⟨cs, .operator a⟩ : Reading).step t = .ok ⟨.index a [] .first :: cs, .operand⟩ := by
    simp [Reading.step, Reading.stepOperator, hk]
  exact ((ha.reaches cs).trans (.head hopen hreach)).snoc (hclose u hu)

theorem name (hk : t.kind = .name) : Complete [t] (.expression l (.name t.text)) := by
  refine of_reaches fun cs => .single ?_
  simp [Reading.step, Reading.stepOperand, hk]

theorem literal {v : Literal} (hv : v.Written t) : Complete [t] (.expression l (.literal v)) := by
  refine of_reaches fun cs => .single ?_
  cases hv with
  | number hk hl => simp [Reading.step, Reading.stepOperand, hk, hl]
  | string hk | trueWord hk | falseWord hk | noneWord hk =>
    simp [Reading.step, Reading.stepOperand, hk]

theorem paren (hk : t.kind = .leftParen) (he : Complete xs (.expression .boolean e))
    (hu : u.kind = .rightParen) : Complete (t :: xs ++ [u]) (.expression l (.paren e)) := by
  refine of_reaches fun cs => ?_
  obtain ⟨r, hreach, hstep⟩ := he.expression_step (.paren :: cs) trivial
  have hopen : (⟨cs, .operand⟩ : Reading).step t = .ok ⟨.paren :: cs, .operand⟩ := by
    simp [Reading.step, Reading.stepOperand, hk]
  refine (Reaches.head hopen hreach).snoc ?_
  rw [hstep u (by rw [hu]; decide), hu]
  rfl

theorem list {es : List Node} (hk : t.kind = .leftBracket) (hes : Complete xs (.elements es))
    (hu : u.kind = .rightBracket) : Complete (t :: xs ++ [u]) (.expression l (.list es)) := by
  refine of_reaches fun cs => ?_
  obtain ⟨r, hreach, -, hclose⟩ := hes.2 cs
  have hopen : (⟨cs, .operand⟩ : Reading).step t = .ok ⟨.list [] :: cs, .operand⟩ := by
    simp [Reading.step, Reading.stepOperand, hk]
  exact (Reaches.head hopen hreach).snoc (hclose u hu)

theorem noElements : Complete [] (.elements []) := by
  refine ⟨fun f cs => ⟨_, .refl _, fun h => absurd rfl h, fun t ht => ?_⟩,
    fun cs => ⟨_, .refl _, fun h => absurd rfl h, fun t ht => ?_⟩⟩
  · simp [Reading.step, Reading.stepOperand, Reading.withoutOperand, ht]
  · simp [Reading.step, Reading.stepOperand, Reading.withoutOperand, ht]

/-- One element more: `h` says where the elements before it and their comma lead to, both in a call
and in a list. -/
theorem elements_snoc {es : List Node} (he : Complete ys (.expression .boolean e))
    (hcall : ∀ f cs, Reaches ⟨.call f [] :: cs, .operand⟩ xs ⟨.call f es :: cs, .operand⟩)
    (hlist : ∀ cs, Reaches ⟨.list [] :: cs, .operand⟩ xs ⟨.list es :: cs, .operand⟩) :
    Complete (xs ++ ys) (.elements (es ++ [e])) := by
  refine ⟨fun f cs => ?_, fun cs => ?_⟩
  · obtain ⟨r, hreach, hstep⟩ := he.expression_step (.call f es :: cs) trivial
    refine ⟨r, (hcall f cs).trans hreach, fun _ t ht => ?_, fun t ht => ?_⟩
    · rw [hstep t (by rw [ht]; decide), ht]
      rfl
    · rw [hstep t (by rw [ht]; decide), ht]
      rfl
  · obtain ⟨r, hreach, hstep⟩ := he.expression_step (.list es :: cs) trivial
    refine ⟨r, (hlist cs).trans hreach, fun _ t ht => ?_, fun t ht => ?_⟩
    · rw [hstep t (by rw [ht]; decide), ht]
      rfl
    · rw [hstep t (by rw [ht]; decide), ht]
      rfl

theorem oneElement (he : Complete xs (.expression .boolean e)) : Complete xs (.elements [e]) := by
  have hsnoc : Complete ([] ++ xs) (.elements ([] ++ [e])) :=
    elements_snoc he (fun _ _ => .refl _) fun _ => .refl _
  simpa using hsnoc

theorem moreElements {es : List Node} (hne : es ≠ []) (hes : Complete xs (.elements es))
    (hk : t.kind = .comma) (he : Complete ys (.expression .boolean e)) :
    Complete (xs ++ t :: ys) (.elements (es ++ [e])) := by
  have hsnoc : Complete (xs ++ [t] ++ ys) (.elements (es ++ [e])) := by
    refine elements_snoc he (fun f cs => ?_) fun cs => ?_
    · obtain ⟨r, hreach, hcomma, -⟩ := hes.1 f cs
      exact hreach.snoc (hcomma hne t hk)
    · obtain ⟨r, hreach, hcomma, -⟩ := hes.2 cs
      exact hreach.snoc (hcomma hne t hk)
  simpa using hsnoc

theorem absent : Complete [] (.bound none) := by
  refine fun a is part cs => ⟨_, .refl _, fun t ht => ?_⟩
  rcases ht with ht | ht | ht <;>
  · simp only [Reading.step, Reading.stepOperand, ht]
    cases part <;> rfl

theorem present (he : Complete xs (.expression .boolean e)) : Complete xs (.bound (some e)) := by
  intro a is part cs
  obtain ⟨r, hreach, hstep⟩ := he.expression_step (.index a is part :: cs) trivial
  refine ⟨r, hreach, fun t ht => ?_⟩
  have hends : Ends t.kind := by rcases ht with ht | ht | ht <;> rw [ht] <;> decide
  rw [hstep t hends, Reading.afterExpression]

theorem ellipsis (hk : t.kind = .ellipsis) : Complete [t] (.item .ellipsis) := by
  refine fun a is cs => ⟨_, .single (s := ⟨.index a is .first :: cs, .separator .ellipsis⟩) ?_,
    fun t _ => rfl⟩
  simp [Reading.step, Reading.stepOperand, Reading.withoutOperand, hk]

/-- A bound that is the last part of its item. -/
theorem item_of_bound {o : Option Node} {i : IndexItem} {part : ItemPart}
    (ho : Complete ys (.bound o)) (hi : part.complete o = some i)
    (h : ∀ a is cs, Reaches ⟨.index a is .first :: cs, .operand⟩ xs
      ⟨.index a is part :: cs, .operand⟩) : Complete (xs ++ ys) (.item i) := by
  intro a is cs
  obtain ⟨r, hreach, hstep⟩ := ho a is part cs
  refine ⟨r, (h a is cs).trans hreach, fun t ht => ?_⟩
  rw [hstep t (Or.inr ht)]
  unfold Reading.afterPart
  rcases ht with ht | ht <;>
  · rw [hi, ht]
    split <;> simp_all

/-- A bound with a colon behind it. -/
theorem bound_colon {o : Option Node} {part next : ItemPart} (ho : Complete ys (.bound o))
    (hn : part.next o = some next) (hk : t.kind = .colon) (a : Node) (is : List IndexItem)
    (cs : List Construct) :
    Reaches ⟨.index a is part :: cs, .operand⟩ (ys ++ [t]) ⟨.index a is next :: cs, .operand⟩ := by
  obtain ⟨r, hreach, hstep⟩ := ho a is part cs
  refine hreach.snoc ?_
  rw [hstep t (Or.inl hk)]
  simp only [Reading.afterPart, hn, hk]

theorem entry (he : Complete xs (.expression .boolean e)) : Complete xs (.item (.expr e)) := by
  have hi : ItemPart.first.complete (some e) = some (.expr e) := rfl
  have hitem : Complete ([] ++ xs) (.item (.expr e)) :=
    item_of_bound he.present hi fun _ _ _ => .refl _
  simpa using hitem

/-- A slice with one colon. -/
theorem oneColon {a b : Option Node} {i : IndexItem} (ha : Complete xs (.bound a))
    (hk : t.kind = .colon) (hb : Complete ys (.bound b))
    (hi : (ItemPart.stop a).complete b = some i) : Complete (xs ++ t :: ys) (.item i) := by
  have hn : ItemPart.first.next a = some (.stop a) := rfl
  simpa using item_of_bound hb hi (ha.bound_colon hn hk)

theorem stepped {a b c : Option Node} (ha : Complete xs (.bound a)) (hk : t.kind = .colon)
    (hb : Complete ys (.bound b)) (hu : u.kind = .colon) (hc : Complete zs (.bound c)) :
    Complete (xs ++ t :: ys ++ u :: zs) (.item (.slice a b c true)) := by
  have hstop : ItemPart.first.next a = some (.stop a) := rfl
  have hstep : (ItemPart.stop a).next b = some (.step a b) := rfl
  have hi : (ItemPart.step a b).complete c = some (.slice a b c true) := rfl
  have := item_of_bound hc hi fun n is cs =>
    (ha.bound_colon hstop hk n is cs).trans (hb.bound_colon hstep hu n is cs)
  simpa using this

/-- One item more. -/
theorem items_snoc {is : List IndexItem} {i : IndexItem} (hi : Complete ys (.item i))
    (h : ∀ a cs, Reaches ⟨.index a [] .first :: cs, .operand⟩ xs
      ⟨.index a is .first :: cs, .operand⟩) : Complete (xs ++ ys) (.items (is ++ [i])) := by
  intro a cs
  obtain ⟨r, hreach, hstep⟩ := hi a is cs
  refine ⟨r, (h a cs).trans hreach, fun t ht => ?_, fun t ht => ?_⟩
  · rw [hstep t (Or.inl ht), ht]
    rfl
  · rw [hstep t (Or.inr ht), ht]
    rfl

theorem oneItem {i : IndexItem} (hi : Complete xs (.item i)) : Complete xs (.items [i]) := by
  have hsnoc : Complete ([] ++ xs) (.items ([] ++ [i])) := items_snoc hi fun _ _ => .refl _
  simpa using hsnoc

theorem moreItems {is : List IndexItem} {i : IndexItem} (his : Complete xs (.items is))
    (hk : t.kind = .comma) (hi : Complete ys (.item i)) :
    Complete (xs ++ t :: ys) (.items (is ++ [i])) := by
  have hsnoc : Complete (xs ++ [t] ++ ys) (.items (is ++ [i])) := by
    refine items_snoc hi fun a cs => ?_
    obtain ⟨r, hreach, hcomma, -⟩ := his a cs
    exact hreach.snoc (hcomma t hk)
  simpa using hsnoc

end Phrase.Complete

/-- **Every phrase is read**, by induction over its productions. -/
theorem Derives.complete {xs : List Token} {p : Phrase} (h : Derives xs p) : p.Complete xs := by
  induction h with
  | @chain xs ys t l op a b hop hl _ hk _ iha ihb =>
    subst hl
    rw [← BinaryOp.leftTier_of_ne_pow hop] at iha
    rw [← BinaryOp.rightTier_of_ne_pow hop] at ihb
    exact .binary iha hk ihb
  | @power xs ys t a b _ hk _ iha ihb =>
    have hpow : t.kind = BinaryOp.pow.kind := hk
    exact .binary iha hpow ihb
  | unary hk _ ih => exact .unary hk ih
  | member _ hk hs ih => exact ih.member hk hs
  | call _ hk _ hu ihf ihas => exact .call ihf hk ihas hu
  | index _ hk _ hu iha ihis => exact .index iha hk ihis hu
  | name hk => exact .name hk
  | literal hl => exact .literal hl
  | paren hk _ hu ih => exact .paren hk ih hu
  | list hk _ hu ih => exact .list hk ih hu
  | tighter _ ih => exact ih.tighter
  | noElements => exact .noElements
  | oneElement _ ih => exact ih.oneElement
  | moreElements hne _ hk _ ihes ihe => exact .moreElements hne ihes hk ihe
  | absent => exact .absent
  | present _ ih => exact ih.present
  | ellipsis hk => exact .ellipsis hk
  | entry _ ih => exact ih.entry
  | @full t hk =>
    have : Phrase.Complete ([] ++ [t]) (.item .full) := .oneColon .absent hk .absent rfl
    exact this
  | @range xs ys t a b hab _ hk _ iha ihb =>
    refine .oneColon iha hk ihb ?_
    cases a <;> cases b <;> simp_all [ItemPart.complete]
  | stepped _ hk _ hu _ iha ihb ihc => exact .stepped iha hk ihb hu ihc
  | oneItem _ ih => exact ih.oneItem
  | moreItems _ hk _ ihis ihi => exact .moreItems ihis hk ihi

/-! ### Lines -/

theorem Phrase.Complete.finish {xs : List Token} {e : Node}
    (h : Complete xs (.expression .boolean e)) (cs : List Construct) (hcs : Settled 0 cs) :
    ∃ r, Reaches ⟨cs, .operand⟩ xs r ∧ r.finish = (⟨cs, .operator e⟩ : Reading).finish := by
  obtain ⟨cs', e', hreach, hclose⟩ := h.2 cs (waits_of_settled_zero hcs _)
  refine ⟨_, hreach, ?_⟩
  simp only [Reading.finish, hclose 0 (Nat.zero_le _)]

/-- **Completeness.** A line that is derivable is read to its tree. -/
theorem read_of_derivesLine {ts : List Token} {e : Node} (h : DerivesLine ts e) :
    TokenLine.read .start ts = .ok e := by
  cases h with
  | expression he =>
    obtain ⟨r, hreach, hfinish⟩ := he.complete.finish [] trivial
    rw [Reading.start, hreach.read, hfinish]
    rfl
  | @assign xs ys t op e v he ha hk hv =>
    obtain ⟨r, hreach, hstep⟩ := he.complete.expression_step ([]) trivial
    obtain ⟨s, hreach', hfinish⟩ := hv.complete.finish [.assign op e] trivial
    have hends : Ends t.kind := by
      rw [hk]
      cases op <;> decide
    have hassign : r.step t = .ok ⟨[.assign op e], .operand⟩ := by
      rw [hstep t hends, hk, Reading.afterExpression, op.ofKind?_kind]
      simp [ha]
    have hline : Reaches .start (xs ++ t :: ys) s := hreach.trans (.head hassign hreach')
    rw [hline.read, hfinish]
    rfl

/-- Reading a line gives a tree exactly if the tree is derivable from the tokens of the line. -/
theorem read_start_eq_ok_iff {ts : List Token} {e : Node} :
    TokenLine.read .start ts = .ok e ↔ DerivesLine ts e :=
  ⟨derivesLine_of_read, read_of_derivesLine⟩

/-- **Unambiguity.** No line has two trees. -/
theorem DerivesLine.unique {ts : List Token} {e e' : Node} (h : DerivesLine ts e)
    (h' : DerivesLine ts e') : e = e' := by
  have := (read_of_derivesLine h).symm.trans (read_of_derivesLine h')
  exact Except.ok.inj this

end ShapeFault
