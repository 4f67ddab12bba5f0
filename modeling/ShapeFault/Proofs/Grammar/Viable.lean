import ShapeFault.Proofs.Grammar.Line
import ShapeFault.Proofs.Lexing.Form
import ShapeFault.Proofs.Source.Genuine

/-!
# Every part of a line that has been read can be completed

Whatever is open can be closed: behind an operand the closers of the open constructs, innermost
first, complete the line (`Opened.read_closing`), and an operand can be put wherever one is due. So
every run of tokens that has been read without a refusal is the beginning of a line with a tree
(`Live.viable`). The tokens that are put behind it are samples of their kinds, genuine ones
with a fixed text.
-/

namespace ShapeFault

open Token (Kind)

/-! ### Sample tokens -/

namespace Token.Kind

/-- A token of a kind. -/
def sample (k : Kind) : Token where
  kind := k
  text :=
    match k with
    | name => "x"
    | number => "1"
    | string => "''"
    | k => k.spelling
  span := ⟨0, 0⟩

theorem form_sample {k : Kind} (hk : k ≠ endMarker) : k.Form k.sample.text.toList := by
  by_cases hspelled : k ∈ punctuation ∨ k ∈ keywords
  · have htext : k.sample.text = k.spelling := by
      cases k <;> first | rfl | exact absurd hspelled (by decide)
    rw [htext]
    exact .spelled hspelled
  · have hrest : k = name ∨ k = number ∨ k = string := by
      cases k <;> first | exact absurd rfl hk | exact absurd (by decide) hspelled | decide
    rcases hrest with rfl | rfl | rfl
    · exact .name (by decide : Text.startsWord 'x') nofun (by decide)
    · have hdigits : ∀ d ∈ ['1'], d.isDigit := List.forall_mem_singleton.mpr (by decide)
      have hone : Lexeme.NumberForm ['1'] :=
        ⟨['1'], [], [], rfl, ⟨hdigits, .none, .none⟩, '1', by decide, by decide⟩
      exact .number hone fun _ => by decide
    · exact .string (Or.inr rfl) (.nil : Lexeme.Quoted '\'' [])

theorem genuine_sample {k : Kind} (hk : k ≠ endMarker) : k.sample.Genuine :=
  ⟨[], form_iff_stands.mp (form_sample hk)⟩

end Token.Kind

/-! ### Closing what is open -/

/-- The kind of token that closes a construct. An operator needs none. -/
def Construct.closer? : Construct → Option Kind
  | paren | call _ _ => some .rightParen
  | list _ | index _ _ _ => some .rightBracket
  | unary _ | binary _ _ | assign _ _ => none

/-- The kinds of tokens that close the open constructs behind an expression. -/
def closing (cs : List Construct) : List Kind :=
  cs.filterMap Construct.closer?

theorem eq_of_mem_closing {cs : List Construct} {k : Kind} (h : k ∈ closing cs) :
    k = .rightParen ∨ k = .rightBracket := by
  obtain ⟨c, -, hc⟩ := List.mem_filterMap.mp h
  cases c <;> cases hc <;> decide

/-- Behind an expression, a token that extends none finds only what is left when all operators have
been closed. -/
theorem TokenLine.read_operator_congr {cs cs' : List Construct} {e e' : Node} {ts : List Token}
    (h : closeTighter 0 cs e = closeTighter 0 cs' e') (hts : ∀ t ∈ ts.head?, Ends t.kind) :
    read ⟨cs, .operator e⟩ ts = read ⟨cs', .operator e'⟩ ts := by
  cases ts with
  | nil => simp only [read, Reading.finish, h]
  | cons t ts => simp only [read, step_of_ends (hts t rfl), h]

theorem ItemPart.exists_complete (part : ItemPart) (e : Node) :
    ∃ i, part.complete (some e) = some i := by
  cases part with
  | first => exact ⟨_, rfl⟩
  | stop a => cases a <;> exact ⟨_, rfl⟩
  | step a b => exact ⟨_, rfl⟩

/-- A comma and a bracket are taken behind a complete item. -/
theorem Reading.afterPart_eq_afterItem {a : Node} {is : List IndexItem} {part : ItemPart}
    {cs : List Construct} {o : Option Node} {i : IndexItem} {k : Kind}
    (hi : part.complete o = some i) (hk : k ≠ .colon) :
    afterPart a is part cs o k = afterItem a is cs i k := by
  unfold afterPart
  split
  · exact absurd rfl hk
  · rename_i heq _
    rw [hi] at heq
    cases heq
    rfl
  · rename_i heq _
    rw [hi] at heq
    cases heq

/-- **Closing.** Behind an expression the closers of the open constructs complete the line. -/
theorem Opened.read_closing {us : List Token} {cs : List Construct} (h : Opened us cs) (e : Node) :
    ∃ e', TokenLine.read ⟨cs, .operator e⟩ ((closing cs).map Kind.sample) = .ok e' := by
  have hends : ∀ cs, ∀ t ∈ ((closing cs).map Kind.sample).head?, Ends t.kind := by
    intro cs t ht
    obtain ⟨k, hk, rfl⟩ := List.mem_map.mp (List.mem_of_mem_head? ht)
    rcases eq_of_mem_closing hk with rfl | rfl <;> decide
  induction h generalizing e with
  | nil | assign => exact ⟨_, rfl⟩
  | @unary xs cs t op _ _ ih =>
    obtain ⟨e', he'⟩ := ih (.unary op e)
    have hclose : closeTighter 0 (.unary op :: cs) e = closeTighter 0 cs (.unary op e) := rfl
    exact ⟨e', (TokenLine.read_operator_congr hclose (hends cs)).trans he'⟩
  | @binary xs ys cs t op a _ _ _ _ ih =>
    obtain ⟨e', he'⟩ := ih (.binary op a e)
    have hclose : closeTighter 0 (.binary op a :: cs) e = closeTighter 0 cs (.binary op a e) := rfl
    exact ⟨e', (TokenLine.read_operator_congr hclose (hends cs)).trans he'⟩
  | paren _ _ ih => exact ih (.paren e)
  | @call _ _ _ _ _ f as _ _ _ _ ih => exact ih (.call f (as ++ [e]))
  | @list _ _ _ _ es _ _ _ ih => exact ih (.list (es ++ [e]))
  | @index xs ys zs ws cs t a is part _ _ _ _ _ ih =>
    obtain ⟨i, hi⟩ := part.exists_complete e
    obtain ⟨e', he'⟩ := ih (.index a (is ++ [i]))
    have hstep : (⟨.index a is part :: cs, .operator e⟩ : Reading).step Kind.rightBracket.sample =
        .ok ⟨cs, .operator (.index a (is ++ [i]))⟩ :=
      Reading.afterPart_eq_afterItem (k := .rightBracket) hi (by decide)
    exact ⟨e', (Reaches.single hstep).read_append _ |>.trans he'⟩

/-- **Every reading can be completed** with sample tokens. -/
theorem Reads.exists_read {xs : List Token} {r : Reading} (h : Reads xs r) :
    ∃ (ks : List Kind) (e : Node), .endMarker ∉ ks ∧
      TokenLine.read r (ks.map Kind.sample) = .ok e := by
  have hclosing : ∀ cs, Kind.endMarker ∉ closing cs := by
    intro cs hmem
    rcases eq_of_mem_closing hmem with h | h <;> cases h
  cases h with
  | @operand _ cs hcs =>
    obtain ⟨e, he⟩ := hcs.read_closing (.name "x")
    exact ⟨.name :: closing cs, e, by simp [hclosing], he⟩
  | @operator us vs cs e hcs _ =>
    obtain ⟨e', he'⟩ := hcs.read_closing e
    exact ⟨closing cs, e', hclosing cs, he'⟩
  | @member us vs cs t e hcs _ _ =>
    obtain ⟨e', he'⟩ := hcs.read_closing (.member e "x")
    exact ⟨.name :: closing cs, e', by simp [hclosing], he'⟩
  | @separator us vs cs a is i hcs _ =>
    cases hcs with
    | index hcs =>
      obtain ⟨e', he'⟩ := hcs.read_closing (.index a (is ++ [i]))
      exact ⟨.rightBracket :: closing cs, e', by simp [hclosing], he'⟩

/-! ### Beginnings of lines -/

/-- Some line with a tree begins with these tokens. -/
def Viable (ts : List Token) : Prop :=
  ∃ ys e, (∀ t ∈ ys, t.Genuine) ∧ parseTokens (ts ++ ys) = .ok (some e)

/-- Tokens that neither end a line nor make it idle, wherever it may go on behind them. -/
structure Live (ts : List Token) : Prop where
  goesOn : ∀ t ∈ ts, t.kind ≠ .endMarker
  noStatement : ∀ t ∈ ts.head?, ¬ (t.kind = .name ∧ t.text ∈ TokenLine.statementWords)

namespace Live

variable {xs ys : List Token}

theorem of_isIdle {l : TokenLine} (h : ∀ t ∈ l.tokens, t.kind ≠ .endMarker)
    (hidle : l.isIdle = false) : Live l.tokens where
  goesOn := h
  noStatement t ht := by
    obtain ⟨ts, htokens⟩ := List.head?_eq_some_iff.mp ht
    simpa [TokenLine.isIdle, htokens] using hidle

theorem of_append (h : Live (xs ++ ys)) : Live xs where
  goesOn t ht := h.goesOn t (List.mem_append_left ys ht)
  noStatement t ht := by
    obtain ⟨ts, rfl⟩ := List.head?_eq_some_iff.mp ht
    exact h.noStatement t rfl

theorem append_samples (h : Live xs) {ks : List Kind} (hks : .endMarker ∉ ks) :
    Live (xs ++ ks.map Kind.sample) where
  goesOn t ht := by
    rcases List.mem_append.mp ht with ht | ht
    · exact h.goesOn t ht
    · obtain ⟨k, hk, rfl⟩ := List.mem_map.mp ht
      exact fun heq => hks (heq ▸ hk)
  noStatement t ht := by
    cases xs with
    | cons u us => exact h.noStatement t ht
    | nil =>
      cases ks with
      | nil => cases ht
      | cons k ks =>
        cases ht
        rintro ⟨hk, htext⟩
        obtain rfl : k = .name := hk
        exact absurd htext (by decide)

/-- The tree of a live line. -/
theorem parseTokens_eq_ok_some_iff (h : Live xs) {e : Node} :
    parseTokens xs = .ok (some e) ↔ TokenLine.read .start xs = .ok e := by
  have htokens : (TokenLine.ofTokens xs).tokens = xs := by
    have hnil : (TokenLine.ofTokens []).tokens = [] := rfl
    simpa [hnil] using TokenLine.tokens_ofTokens_append h.goesOn []
  rw [parseTokens, TokenLine.parse_eq_ok_some_iff, htokens, ← read_start_eq_ok_iff]
  refine and_iff_right_of_imp fun hread => ?_
  cases xs with
  | nil => cases hread
  | cons t ts => simpa [TokenLine.isIdle, htokens] using h.noStatement t rfl

end Live

theorem Reads.reaches {xs ys : List Token} {r s : Reading} (h : Reads xs r) (h' : Reaches r ys s) :
    Reads (xs ++ ys) s := by
  induction h' generalizing xs with
  | refl => rwa [List.append_nil]
  | head ht _ ih => simpa using ih (h.step ht)

theorem Reaches.reads {xs : List Token} {r : Reading} (h : Reaches .start xs r) : Reads xs r :=
  (Reads.operand .nil).reaches h

/-- **What has been read is the beginning of a line with a tree**, if it does not make the line
idle. -/
theorem Live.viable {xs : List Token} {r : Reading} (h : Live xs) (hreach : Reaches .start xs r) :
    Viable xs := by
  obtain ⟨ks, e, hks, he⟩ := hreach.reads.exists_read
  refine ⟨ks.map Kind.sample, e, fun t ht => ?_,
    (h.append_samples hks).parseTokens_eq_ok_some_iff.mpr ((hreach.read_append _).trans he)⟩
  obtain ⟨k, hk, rfl⟩ := List.mem_map.mp ht
  exact Kind.genuine_sample fun heq => hks (heq ▸ hk)

end ShapeFault
