import ShapeFault.Proofs.Source.Fusing

/-!
# Reading a phrase again

The source of a phrase is a text of its own, and `Phrase.ReadsAs` says that it consists of the
tokens that the phrase was derived from exactly if none of its members fuses. This is shown
production by production for phrases in front of a rest: the rest starts with a separator, and it
starts with a point only behind the object of a member.
-/

namespace ShapeFault

open Token (Kind)

/-- No member within the tree fuses. -/
def Node.Clean (e : Node) : Prop :=
  ∀ m, e.Contains m → ¬ m.Fuses

theorem Node.clean_iff {e : Node} : e.Clean ↔ ¬ e.Fuses ∧ ∀ p ∈ e.parts, p.Clean :=
  forall_contains_iff

/-- A tree that does not fuse itself is clean if its parts are. -/
theorem Node.clean_iff_parts {e : Node} (h : ¬ e.Fuses) : e.Clean ↔ ∀ p ∈ e.parts, p.Clean := by
  rw [clean_iff]
  exact and_iff_right h

namespace Phrase

/-- A phrase as code. -/
def source : Phrase → String
  | expression _ e => e.source
  | elements es => commaSeparated (Node.sources es)
  | bound b => Node.boundSource b
  | item i => i.source
  | items is => commaSeparated (IndexItem.sources is)

/-- The trees that a phrase is made of. -/
def parts : Phrase → List Node
  | expression _ e => [e]
  | elements es => es
  | bound b => b.toList
  | item i => i.parts
  | items is => is.flatMap IndexItem.parts

/-- No member within the phrase fuses. -/
def Clean (p : Phrase) : Prop :=
  ∀ e ∈ p.parts, e.Clean

/-- The phrases that can be the object of a member, but for numbers. -/
def TakesPoint : Phrase → Prop
  | expression l e => 7 < l.rank ∧ e.isNumber = false
  | _ => False

/-- The rests that the source of a tree has behind a phrase. -/
def Follow (p : Phrase) (rest : List Char) : Prop :=
  Separated rest ∧ ('.' ∈ rest.head? → p.TakesPoint)

/-- **Reading a phrase again**: in front of a rest, the source of the phrase reads as the tokens
`xs` exactly if none of its members fuses. -/
def ReadsAs (xs : List Token) (p : Phrase) : Prop :=
  ∀ rest ws, p.Follow rest → (Lexes (p.source.toList ++ rest) (xs.map Token.lexeme ++ ws) ↔
    p.Clean ∧ Lexes rest ws)

theorem clean_expression {l : Tier} {e : Node} : (expression l e).Clean ↔ e.Clean :=
  List.forall_mem_singleton

theorem follow_cons {c : Char} (hc : c ∈ separators) (hdot : c ≠ '.') (p : Phrase)
    (rest : List Char) : p.Follow (c :: rest) := by
  refine ⟨?_, ?_⟩
  · rintro _ ⟨⟩
    exact hc
  · rintro ⟨⟩
    exact absurd rfl hdot

theorem follow_nil (p : Phrase) : p.Follow [] :=
  ⟨nofun, nofun⟩

/-- Where no point follows, the phrase does not matter. -/
theorem Follow.of_not_takesPoint {p q : Phrase} {rest : List Char} (h : p.Follow rest)
    (hp : ¬ p.TakesPoint) : q.Follow rest :=
  ⟨h.1, fun hdot => absurd (h.2 hdot) hp⟩

/-- Each bracket is a separator. -/
theorem follow_bracket {k : Kind}
    (hk : k ∈ [Kind.leftParen, .rightParen, .leftBracket, .rightBracket]) (p : Phrase)
    (rest : List Char) : p.Follow (k.spelling.toList ++ rest) := by
  simp only [List.mem_cons, List.not_mem_nil, or_false] at hk
  rcases hk with rfl | rfl | rfl | rfl <;> exact follow_cons (by decide) (by decide) _ _

/-- The pairs of brackets. -/
def brackets : List (Kind × Kind) :=
  [(.leftParen, .rightParen), (.leftBracket, .rightBracket)]

namespace ReadsAs

variable {xs ys : List Token} {t u : Token} {l : Tier} {e : Node}

theorem expression_iff (h : ReadsAs xs (.expression l e)) {rest : List Char}
    (hrest : Follow (.expression l e) rest) {ws : List (Kind × String)} :
    Lexes (e.source.toList ++ rest) (xs.map Token.lexeme ++ ws) ↔ e.Clean ∧ Lexes rest ws := by
  rw [← clean_expression]
  exact h rest ws hrest

/-- An expression can be read in front of each separator but the point. -/
theorem expression_cons_iff (h : ReadsAs xs (.expression l e)) {c : Char} (hc : c ∈ separators)
    (hdot : c ≠ '.') {rest : List Char} {ws : List (Kind × String)} :
    Lexes (e.source.toList ++ c :: rest) (xs.map Token.lexeme ++ ws) ↔
      e.Clean ∧ Lexes (c :: rest) ws :=
  h.expression_iff (follow_cons hc hdot _ _)

/-- An expression can be read at the end of a line. -/
theorem expression_end_iff (h : ReadsAs xs (.expression l e)) :
    Lexes e.source.toList (xs.map Token.lexeme) ↔ e.Clean := by
  have hiff : Lexes (e.source.toList ++ []) (xs.map Token.lexeme ++ []) ↔ e.Clean ∧ Lexes [] [] :=
    h.expression_iff (follow_nil _)
  rw [List.append_nil, List.append_nil] at hiff
  exact hiff.trans (and_iff_left (.done rfl))

/-! ### Operators -/

theorem binary {l₁ l₂ : Tier} {op : BinaryOp} {a b : Node} (hl : l.rank ≤ 7)
    (ha : ReadsAs xs (.expression l₁ a)) (ht : t.Genuine) (hk : t.kind = op.kind)
    (hb : ReadsAs ys (.expression l₂ b)) :
    ReadsAs (xs ++ t :: ys) (.expression l (.binary op a b)) := by
  intro rest ws hrest
  have hop : op.kind ∈ Kind.punctuation ∨ op.kind ∈ Kind.keywords := by
    cases op <;> decide
  have htext : (source (.expression l (.binary op a b))).toList ++ rest = a.source.toList ++
      ' ' :: (op.kind.spelling.toList ++ ' ' :: (b.source.toList ++ rest)) := by
    simp [source, Node.source, BinaryOp.symbol]
  have hclean : (Node.binary op a b).Clean ↔ a.Clean ∧ b.Clean :=
    Iff.trans (Node.clean_iff_parts nofun) (by simp [Node.parts])
  have hpoint : ¬ TakesPoint (.expression l (.binary op a b)) :=
    fun h => absurd h.1 (Nat.not_lt_of_le hl)
  rw [htext, List.map_append, List.map_cons, List.append_assoc, List.cons_append,
    ha.expression_cons_iff (by decide) (by decide), Lexes.blank_iff (by decide),
    ht.lexes_spaced_iff hk hop, hb.expression_iff (hrest.of_not_takesPoint hpoint),
    clean_expression, hclean, and_assoc]

theorem unary {op : UnaryOp} (ht : t.Genuine) (hk : t.kind = op.kind)
    (hhead : ∃ c ∈ e.source.toList.head?, c ≠ '=') (he : ReadsAs xs (.expression .unary e)) :
    ReadsAs (t :: xs) (.expression .unary (.unary op e)) := by
  intro rest ws hrest
  have hclean : (Node.unary op e).Clean ↔ e.Clean :=
    Iff.trans (Node.clean_iff_parts nofun) (by simp [Node.parts])
  have hpoint : ¬ TakesPoint (.expression .unary (.unary op e)) := fun h => absurd h.1 (by decide)
  have hopening : Lexes (op.opening.toList ++ (e.source.toList ++ rest))
      (t.lexeme :: (xs.map Token.lexeme ++ ws)) ↔
        Lexes (e.source.toList ++ rest) (xs.map Token.lexeme ++ ws) := by
    cases op with
    | neg =>
      refine ht.lexes_spelling_iff hk (Or.inl (by decide)) (.minus ?_)
      obtain ⟨c, hc, hne⟩ := hhead
      obtain ⟨cs, hcs⟩ := List.head?_eq_some_iff.mp hc
      rw [hcs]
      rintro _ ⟨⟩
      exact hne
    | not => exact ht.lexes_spaced_iff hk (Or.inr (by decide))
  have htext : (source (.expression .unary (.unary op e))).toList ++ rest =
      op.opening.toList ++ (e.source.toList ++ rest) := by
    simp [source, Node.source]
  rw [htext, List.map_cons, List.cons_append, hopening,
    he.expression_iff (hrest.of_not_takesPoint hpoint), clean_expression, hclean]

theorem tighter (h : ReadsAs xs (.expression l.tighter e)) : ReadsAs xs (.expression l e) := by
  intro rest ws hrest
  refine h rest ws ⟨hrest.1, fun hdot => ?_⟩
  obtain ⟨hlt, hnumber⟩ := hrest.2 hdot
  exact ⟨Nat.lt_of_lt_of_le hlt l.rank_le_rank_tighter, hnumber⟩

/-! ### Operands -/

theorem name (ht : t.Genuine) (hk : t.kind = .name) :
    ReadsAs [t] (.expression l (.name t.text)) := by
  intro rest ws hrest
  have hclean : (Node.name t.text).Clean := Node.clean_iff.mpr ⟨nofun, nofun⟩
  rw [clean_expression, and_iff_right hclean]
  exact ht.lexes_word_iff (Or.inl hk) hrest.1.continuesWord_eq_false

theorem literal {v : Literal} (ht : t.Genuine) (hv : v.Written t) :
    ReadsAs [t] (.expression l (.literal v)) := by
  intro rest ws hrest
  have hclean : (Node.literal v).Clean := Node.clean_iff.mpr ⟨nofun, nofun⟩
  rw [clean_expression, and_iff_right hclean]
  have hword := hrest.1.continuesWord_eq_false
  have htext : source (.expression l (.literal v)) = t.text := hv.text_eq ht
  cases hv with
  | @number v hk hv =>
    -- a point follows objects of members only, and those are no numbers here
    have hdot : '.' ∉ rest.head? := by
      intro hdot
      have hno := (hrest.2 hdot).2
      rcases (Literal.Written.number hk hv).number_cases ht hk with ⟨_, rfl, -⟩ | ⟨_, rfl, -⟩ <;>
        cases hno
    obtain ⟨hfraction, hpoint⟩ := hrest.1.not_point hdot
    rw [htext, List.map_singleton, List.singleton_append, ht.lexes_number_iff hk hrest.1.calm]
    exact and_iff_right ⟨fun _ => hfraction, fun _ => hpoint⟩
  | string hk => exact ht.lexes_string_iff hk
  | trueWord hk | falseWord hk | noneWord hk =>
    rw [htext]
    exact ht.lexes_word_iff (Or.inr (hk ▸ by decide)) hword

/-! ### Brackets -/

/-- A phrase in parentheses or brackets. -/
theorem bracketed_iff {p : Phrase} {k k' : Kind} (hkinds : (k, k') ∈ brackets) (ht : t.Genuine)
    (hk : t.kind = k) (hp : ReadsAs xs p) (hu : u.Genuine) (huk : u.kind = k')
    (rest : List Char) (ws : List (Kind × String)) :
    Lexes (k.spelling.toList ++ (p.source.toList ++ (k'.spelling.toList ++ rest)))
        (t.lexeme :: (xs.map Token.lexeme ++ u.lexeme :: ws)) ↔ p.Clean ∧ Lexes rest ws := by
  have hall : ∀ pair ∈ brackets, pair.1 ∈ Kind.closed ∧ pair.2 ∈ Kind.closed ∧
      pair.2 ∈ [Kind.leftParen, .rightParen, .leftBracket, .rightBracket] := by decide
  obtain ⟨hopen, hclose, hbracket⟩ := hall _ hkinds
  rw [ht.lexes_closed_iff hk hopen, hp _ _ (follow_bracket hbracket p rest)]
  exact and_congr_right' (hu.lexes_closed_iff huk hclose)

theorem paren (ht : t.Genuine) (hk : t.kind = .leftParen)
    (he : ReadsAs xs (.expression .boolean e)) (hu : u.Genuine) (huk : u.kind = .rightParen) :
    ReadsAs (t :: xs ++ [u]) (.expression l (.paren e)) := by
  intro rest ws _
  have hclean : Clean (.expression l (.paren e)) ↔ Clean (.expression .boolean e) :=
    clean_expression.trans (Node.clean_iff_parts nofun)
  have hiff := bracketed_iff (by decide) ht hk he hu huk rest ws
  rw [hclean, ← hiff]
  simp [source, Node.source, Kind.spelling]

theorem list {es : List Node} (ht : t.Genuine) (hk : t.kind = .leftBracket)
    (hes : ReadsAs xs (.elements es)) (hu : u.Genuine) (huk : u.kind = .rightBracket) :
    ReadsAs (t :: xs ++ [u]) (.expression l (.list es)) := by
  intro rest ws _
  have hclean : Clean (.expression l (.list es)) ↔ Clean (.elements es) :=
    clean_expression.trans (Node.clean_iff_parts nofun)
  have hiff := bracketed_iff (by decide) ht hk hes hu huk rest ws
  rw [hclean, ← hiff]
  simp [source, Node.source, Kind.spelling]

/-- An expression with a phrase in parentheses or brackets behind it. -/
theorem applied {p : Phrase} {f : Node} {k k' : Kind} (hkinds : (k, k') ∈ brackets)
    (hf : ReadsAs xs (.expression .suffixed f)) (ht : t.Genuine) (hk : t.kind = k)
    (hp : ReadsAs ys p) (hu : u.Genuine) (huk : u.kind = k')
    (hsource : e.source = f.source ++ k.spelling ++ p.source ++ k'.spelling)
    (hclean : e.Clean ↔ f.Clean ∧ p.Clean) :
    ReadsAs (xs ++ t :: ys ++ [u]) (.expression .suffixed e) := by
  intro rest ws _
  have hall : ∀ pair ∈ brackets,
      pair.1 ∈ [Kind.leftParen, .rightParen, .leftBracket, .rightBracket] := by decide
  have htext : (source (.expression .suffixed e)).toList ++ rest = f.source.toList ++
      (k.spelling.toList ++ (p.source.toList ++ (k'.spelling.toList ++ rest))) := by
    simp [source, hsource]
  rw [htext, List.map_append, List.map_append, List.map_cons, List.append_assoc, List.append_assoc,
    List.cons_append, hf.expression_iff (follow_bracket (hall _ hkinds) _ _), clean_expression,
    hclean, and_assoc]
  exact and_congr_right' (bracketed_iff hkinds ht hk hp hu huk rest ws)

theorem call {f : Node} {as : List Node} (hf : ReadsAs xs (.expression .suffixed f))
    (ht : t.Genuine) (hk : t.kind = .leftParen) (has : ReadsAs ys (.elements as))
    (hu : u.Genuine) (huk : u.kind = .rightParen) :
    ReadsAs (xs ++ t :: ys ++ [u]) (.expression .suffixed (.call f as)) :=
  applied (by decide) hf ht hk has hu huk rfl
    (Iff.trans (Node.clean_iff_parts nofun) List.forall_mem_cons)

theorem index {a : Node} {is : List IndexItem} (ha : ReadsAs xs (.expression .suffixed a))
    (ht : t.Genuine) (hk : t.kind = .leftBracket) (his : ReadsAs ys (.items is))
    (hu : u.Genuine) (huk : u.kind = .rightBracket) :
    ReadsAs (xs ++ t :: ys ++ [u]) (.expression .suffixed (.index a is)) :=
  applied (by decide) ha ht hk his hu huk rfl
    (Iff.trans (Node.clean_iff_parts nofun) List.forall_mem_cons)

/-! ### Members -/

theorem member {s : Token} (he : ReadsAs xs (.expression .suffixed e))
    (hnumber : e.isNumber = false) (ht : t.Genuine) (hk : t.kind = .dot) (hs : s.Genuine)
    (hsk : s.kind = .name) :
    ReadsAs (xs ++ [t, s]) (.expression .suffixed (.member e s.text)) := by
  intro rest ws hrest
  have hfuses : ¬ (Node.member e s.text).Fuses := by
    rintro ⟨⟩ <;> cases hnumber
  have hclean : (Node.member e s.text).Clean ↔ e.Clean :=
    Iff.trans (Node.clean_iff_parts hfuses) (by simp [Node.parts])
  have htext : (source (.expression .suffixed (.member e s.text))).toList ++ rest =
      e.source.toList ++ '.' :: (s.text.toList ++ rest) := by
    simp [source, Node.source]
  have hpoint : Follow (.expression .suffixed e) ('.' :: (s.text.toList ++ rest)) := by
    refine ⟨?_, fun _ => ⟨by decide, hnumber⟩⟩
    rintro _ ⟨⟩
    decide
  rw [htext, List.map_append, List.append_assoc, he.expression_iff hpoint, clean_expression, hclean]
  exact and_congr_right' (ht.lexes_point_iff hk hs hsk hrest.1)

/-- Where the members that fuse come from. -/
theorem memberOfNumber {v : Literal} {d s : Token} (hv : v.Written t) (ht : t.Genuine)
    (hk : t.kind = .number) (hd : d.Genuine) (hdk : d.kind = .dot) (hs : s.Genuine)
    (hsk : s.kind = .name) :
    ReadsAs [t, d, s] (.expression .suffixed (.member (.literal v) s.text)) := by
  intro rest ws hrest
  have hliteral : (Node.literal v).Clean := Node.clean_iff.mpr ⟨nofun, nofun⟩
  have hclean : (Node.member (.literal v) s.text).Clean ↔
      ¬ (Node.member (.literal v) s.text).Fuses := by
    rw [Node.clean_iff]
    exact and_iff_left (List.forall_mem_singleton.mpr hliteral)
  have htext : (source (.expression .suffixed (.member (.literal v) s.text))).toList ++ rest =
      t.text.toList ++ '.' :: (s.text.toList ++ rest) := by
    simp [source, Node.source, hv.text_eq ht]
  rw [htext, clean_expression, hclean]
  exact ht.lexes_member_iff hv hk hd hdk hs hsk hrest.1

/-! ### Elements and items -/

/-- A phrase that is written like another one and made of the same trees. -/
theorem of_source_eq {p q : Phrase} (hp : ReadsAs xs p) (hsource : q.source = p.source)
    (hparts : q.parts = p.parts) (hq : ¬ q.TakesPoint) : ReadsAs xs q := by
  intro rest ws hrest
  rw [hsource, Clean, hparts]
  exact hp rest ws (hrest.of_not_takesPoint hq)

/-- Two phrases with a comma and a space between them. -/
theorem snoc {p q r : Phrase} (hp : ReadsAs xs p) (ht : t.Genuine) (hk : t.kind = .comma)
    (hq : ReadsAs ys q) (hsource : r.source = p.source ++ ", " ++ q.source)
    (hparts : r.parts = p.parts ++ q.parts) (hr : ¬ r.TakesPoint) :
    ReadsAs (xs ++ t :: ys) r := by
  intro rest ws hrest
  have hclean : r.Clean ↔ p.Clean ∧ q.Clean := by
    simp only [Clean, hparts, List.forall_mem_append]
  have htext : r.source.toList ++ rest =
      p.source.toList ++ ',' :: ' ' :: (q.source.toList ++ rest) := by
    simp [hsource]
  rw [htext, List.map_append, List.map_cons, List.append_assoc, List.cons_append,
    hp _ _ (follow_cons (by decide) (by decide) _ _), hclean, and_assoc]
  refine and_congr_right' ((ht.lexes_spaced_iff hk (Or.inl (by decide))).trans ?_)
  exact hq _ _ (hrest.of_not_takesPoint hr)

/-- An empty phrase. -/
theorem empty {p : Phrase} (hsource : p.source = "") (hparts : p.parts = []) : ReadsAs [] p := by
  intro rest ws _
  rw [hsource, Clean, hparts]
  exact (and_iff_right (List.forall_mem_nil _)).symm

/-- A token that is an item on its own. -/
theorem ofToken {p : Phrase} {k : Kind} (ht : t.Genuine) (hk : t.kind = k) (hc : k ∈ Kind.closed)
    (hsource : p.source = k.spelling) (hparts : p.parts = []) : ReadsAs [t] p := by
  intro rest ws _
  rw [hsource, Clean, hparts]
  exact (ht.lexes_closed_iff hk hc).trans (and_iff_right (List.forall_mem_nil _)).symm

theorem moreElements {es : List Node} (hne : es ≠ []) (hes : ReadsAs xs (.elements es))
    (ht : t.Genuine) (hk : t.kind = .comma) (he : ReadsAs ys (.expression .boolean e)) :
    ReadsAs (xs ++ t :: ys) (.elements (es ++ [e])) := by
  refine hes.snoc ht hk he ?_ rfl id
  simp [source, commaSeparated, Node.sources_eq_map, String.intercalate_append_of_ne_nil, hne]

theorem moreItems {is : List IndexItem} {i : IndexItem} (hne : is ≠ [])
    (his : ReadsAs xs (.items is)) (ht : t.Genuine) (hk : t.kind = .comma)
    (hi : ReadsAs ys (.item i)) : ReadsAs (xs ++ t :: ys) (.items (is ++ [i])) := by
  refine his.snoc ht hk hi ?_ (by simp [parts]) id
  simp [source, commaSeparated, IndexItem.sources_eq_map, String.intercalate_append_of_ne_nil, hne]

/-! ### Slices -/

theorem range {a b : Option Node} (ha : ReadsAs xs (.bound a)) (ht : t.Genuine)
    (hk : t.kind = .colon) (hb : ReadsAs ys (.bound b)) :
    ReadsAs (xs ++ t :: ys) (.item (.slice a b none false)) := by
  intro rest ws hrest
  have hclean : Clean (.item (.slice a b none false)) ↔ Clean (.bound a) ∧ Clean (.bound b) := by
    simp [Clean, parts, IndexItem.parts, or_imp, forall_and]
  have htext : (source (.item (.slice a b none false))).toList ++ rest =
      (source (.bound a)).toList ++ ':' :: ((source (.bound b)).toList ++ rest) := by
    simp [source, IndexItem.source]
  rw [htext, List.map_append, List.map_cons, List.append_assoc, List.cons_append,
    ha _ _ (follow_cons (by decide) (by decide) _ _), hclean, and_assoc]
  refine and_congr_right' ((ht.lexes_closed_iff hk (by decide)).trans ?_)
  exact hb _ _ (hrest.of_not_takesPoint id)

theorem stepped {zs : List Token} {a b c : Option Node} (ha : ReadsAs xs (.bound a))
    (ht : t.Genuine) (hk : t.kind = .colon) (hb : ReadsAs ys (.bound b)) (hu : u.Genuine)
    (huk : u.kind = .colon) (hc : ReadsAs zs (.bound c)) :
    ReadsAs (xs ++ t :: ys ++ u :: zs) (.item (.slice a b c true)) := by
  intro rest ws hrest
  have hclean : Clean (.item (.slice a b c true)) ↔
      Clean (.bound a) ∧ Clean (.bound b) ∧ Clean (.bound c) := by
    simp [Clean, parts, IndexItem.parts, or_imp, forall_and]
  have htext : (source (.item (.slice a b c true))).toList ++ rest = (source (.bound a)).toList ++
      ':' :: ((source (.bound b)).toList ++ ':' :: ((source (.bound c)).toList ++ rest)) := by
    simp [source, IndexItem.source]
  rw [htext, List.map_append, List.map_append, List.map_cons, List.map_cons, List.append_assoc,
    List.append_assoc, List.cons_append, List.cons_append,
    ha _ _ (follow_cons (by decide) (by decide) _ _), hclean, and_assoc, and_assoc]
  refine and_congr_right' ((ht.lexes_closed_iff hk (by decide)).trans ?_)
  refine (hb _ _ (follow_cons (by decide) (by decide) _ _)).trans (and_congr_right' ?_)
  refine (hu.lexes_closed_iff huk (by decide)).trans ?_
  exact hc _ _ (hrest.of_not_takesPoint id)

end ReadsAs

end Phrase

end ShapeFault
