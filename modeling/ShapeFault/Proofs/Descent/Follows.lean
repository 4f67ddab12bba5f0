import ShapeFault.Proofs.Descent.Basic
import ShapeFault.Proofs.Grammar.Refusal

/-!
# A run beside the reader of lines

`Follows l m p r post` says that the part `m` of a run, started at the position `p`, comes to an end
and keeps its trail in front of the mark that ends the line `l`, and that meanwhile the reading `r`
goes the same way: what it makes of the tokens from `p` on is what the reading in `post` makes of
those that `m` leaves, or `m` refuses the line with the error of the reader.

The rules show what a run does to a reading. Looking at a token changes nothing
(`Follows.current_bind`), and passing one is a step of the reading (`Follows.advance_bind`). So a
run passes a token only where the reader takes it, and the reader never takes the mark: this is why
`advance` always moves, and never behind the mark.
-/

namespace ShapeFault

open Token (Kind)

/-- What a reading makes of the tokens of a line from a position on. -/
def TokenLine.outcome (l : TokenLine) (r : Reading) (p : Nat) : Except ParseError Node :=
  (read r (l.tokens.drop p)).mapError fun e => l.error e.1 e.2

/-! ### The mark of the end -/

namespace Reading

/-- The line cannot end here. -/
def Open (r : Reading) : Prop :=
  ∀ e, r.finish ≠ .ok e

/-- No reading takes the mark of an end, and it is refused like the end of the line. -/
theorem exists_refusal_of_endMarker {t : Token} (hk : t.kind = .endMarker) (r : Reading) :
    ∃ as, r.step t = .error (.expected as) ∧ (r.Open → r.finish = .error (.expected as)) := by
  obtain ⟨cs, focus⟩ := r
  cases focus with
  | operand =>
    refine ⟨Expected.operand, ?_, fun _ => rfl⟩
    simp only [step, stepOperand, hk]
    unfold withoutOperand
    split <;> first | rfl | contradiction
  | operator e =>
    have hends : Ends t.kind := by rw [hk]; decide
    rw [step_of_ends hends, hk]
    simp only [Open, finish]
    obtain ⟨⟨cs', e'⟩, hclosed⟩ : ∃ c, closeTighter 0 cs e = c := ⟨_, rfl⟩
    rw [hclosed]
    cases cs' with
    | nil => exact ⟨_, rfl, fun h => absurd rfl (h e')⟩
    | cons c cs' =>
      cases c with
      | assign op a =>
        cases cs' with
        | nil => exact ⟨_, rfl, fun h => absurd rfl (h (.assign op a e'))⟩
        | cons => exact ⟨_, rfl, fun _ => rfl⟩
      | index a is part =>
        obtain ⟨i, hi⟩ := part.exists_complete e'
        exact ⟨_, (afterPart_eq_afterItem hi (by decide)).trans rfl, fun _ => rfl⟩
      | paren | call | list | unary | binary => exact ⟨_, rfl, fun _ => rfl⟩
  | member e => exact ⟨_, by simp [step, hk], fun _ => rfl⟩
  | separator i =>
    cases cs with
    | nil => exact ⟨_, rfl, fun _ => rfl⟩
    | cons c cs =>
      cases c with
      | index a is part => exact ⟨_, by simp [step, hk, afterItem]; rfl, fun _ => rfl⟩
      | assign | paren | call | list | unary | binary => exact ⟨_, rfl, fun _ => rfl⟩

end Reading

namespace Descent

/-! ### What stands at a position -/

/-- The list begins with the tokens of a line and the mark that ends it, whatever comes behind. The
texts of strings have an inside. -/
structure Carries (tokens : Tokens) (l : TokenLine) : Prop where
  split : ∃ mark after, tokens = l.tokens ++ mark :: after ∧ mark.kind = .endMarker ∧
    mark.span.start = l.stop
  ne_mark : ∀ t ∈ l.tokens, t.kind ≠ .endMarker
  hasInside : ∀ t ∈ l.tokens, t.kind = .string → Text.hasInside t.text

/-- The token at a position of a list that carries a line: one of the line, or the mark behind
them. -/
inductive Here (tokens : Tokens) (l : TokenLine) (p : Nat) (t : Token) : Prop where
  | token (hget : tokens[p]? = some t) (hp : p < l.tokens.length)
      (hrest : l.tokens.drop p = t :: l.tokens.drop (p + 1)) (hk : t.kind ≠ .endMarker)
  | mark (hget : tokens[p]? = some t) (hrest : l.tokens.drop p = []) (hk : t.kind = .endMarker)
      (hstart : t.span.start = l.stop)

section

variable {tokens : Tokens} {l : TokenLine} {p : Nat} {t : Token} {r r' : Reading}

theorem Carries.length_lt (h : Carries tokens l) : l.tokens.length < tokens.length := by
  obtain ⟨mark, after, rfl, -, -⟩ := h.split
  simp

theorem Carries.exists_here (h : Carries tokens l) (hp : p ≤ l.tokens.length) :
    ∃ t, Here tokens l p t := by
  obtain ⟨mark, after, htokens, hk, hstart⟩ := h.split
  rcases Nat.lt_or_eq_of_le hp with hlt | rfl
  · refine ⟨l.tokens[p], .token ?_ hlt (List.drop_eq_getElem_cons hlt)
      (h.ne_mark _ (List.getElem_mem hlt))⟩
    rw [htokens, List.getElem?_append_left hlt, List.getElem?_eq_getElem hlt]
  · exact ⟨mark, .mark (by simp [htokens]) (List.drop_length) hk hstart⟩

namespace Here

theorem get (h : Here tokens l p t) : tokens[p]? = some t := by
  cases h <;> assumption

/-- A token that a reading takes, or refuses for its value alone, is not the mark. -/
theorem lt_and_drop_eq (h : Here tokens l p t) (hne : ∀ as, r.step t ≠ .error (.expected as)) :
    p < l.tokens.length ∧ l.tokens.drop p = t :: l.tokens.drop (p + 1) := by
  cases h with
  | token _ hp hrest => exact ⟨hp, hrest⟩
  | mark _ _ hk =>
    obtain ⟨as, herror, -⟩ := r.exists_refusal_of_endMarker hk
    exact absurd herror (hne as)

theorem lt_of_step (h : Here tokens l p t) (hstep : r.step t = .ok r') :
    p < l.tokens.length :=
  (h.lt_and_drop_eq (fun _ herror => by cases hstep.symm.trans herror)).1

theorem outcome_of_step (h : Here tokens l p t) (hstep : r.step t = .ok r') :
    l.outcome r p = l.outcome r' (p + 1) := by
  obtain ⟨-, hrest⟩ := h.lt_and_drop_eq fun _ herror => by cases hstep.symm.trans herror
  simp only [TokenLine.outcome, hrest, TokenLine.read, hstep]

/-- The error of a token that a reading refuses, or of the mark where the line cannot end. -/
theorem outcome_of_refused {as : List Expected} (h : Here tokens l p t)
    (hopen : t.kind = .endMarker → r.Open) (hstep : r.step t = .error (.expected as)) :
    l.outcome r p = .error (.unexpected t.span.start as
      (if t.kind = .endMarker then none else some t.text)) := by
  cases h with
  | token _ _ hrest hk =>
    simp only [TokenLine.outcome, hrest, TokenLine.read, hstep, if_neg hk]
    rfl
  | mark _ hrest hk hstart =>
    obtain ⟨as', herror, hfinish⟩ := r.exists_refusal_of_endMarker hk
    obtain rfl : as' = as := by simpa using herror.symm.trans hstep
    simp only [TokenLine.outcome, hrest, TokenLine.read, hfinish (hopen hk), if_pos hk, hstart]
    rfl

/-- The error of a number without a value. -/
theorem outcome_of_badNumber (h : Here tokens l p t) (hstep : r.step t = .error .badNumber) :
    l.outcome r p = .error (.lexical (.invalidNumber t.text t.span.start)) := by
  obtain ⟨-, hrest⟩ := h.lt_and_drop_eq fun _ herror => by cases hstep.symm.trans herror
  simp only [TokenLine.outcome, hrest, TokenLine.read, hstep]
  rfl

end Here

end

/-! ### Runs of the smallest parts -/

section

variable {tokens : Tokens} {s : Trail} {t : Token}

theorem go_bind {α β : Type} (m : Descent α) (f : α → Descent β) (s : Trail) :
    go (m >>= f) s = (go m s).bind fun x =>
      match x with
      | (.ok a, s') => go (f a) s'
      | (.error e, s') => some (.error e, s') := by
  simp only [go, ExceptT.run_bind, StateT.run_bind]
  cases h : (ExceptT.run m).run s with
  | none => rfl
  | some x =>
    obtain ⟨a, s'⟩ := x
    cases a <;> rfl

theorem go_position (s : Trail) : go position s = some (.ok s.position, s) :=
  rfl

theorem go_note (start : Nat) (s : Trail) : go (note start) s =
    some (.ok (), { s with strides := ⟨start, s.position⟩ :: s.strides }) :=
  rfl

theorem go_current (h : tokens[s.position]? = some t) :
    go tokens.current s = some (.ok t, s) := by
  simp only [Tokens.current, go_bind, go_position, Option.bind_some, h]
  rfl

theorem go_advance (h : s.position + 1 < tokens.length) : go tokens.advance s =
    some (.ok (), { s with position := s.position + 1,
                           visited := (s.position + 1) :: s.visited }) := by
  simp only [Tokens.advance, go_bind, go_position, Option.bind_some, if_pos h]
  rfl

theorem go_fail {α : Type} {as : List Expected} (h : tokens[s.position]? = some t) :
    go (tokens.fail as : Descent α) s = some (.error (.refused (.unexpected t.span.start as
      (if t.kind = .endMarker then none else some t.text))), s) := by
  simp only [Tokens.fail, go_bind, go_current h, Option.bind_some]
  rfl

end

/-! ### Parts of a run -/

/-- A trail goes from each position to the next one, in front of the mark that ends a line or on it,
and all that has been passed leads forward. -/
structure Trail.Sound (l : TokenLine) (s : Trail) : Prop where
  position_le : s.position ≤ l.tokens.length
  visited_eq : s.visited = (List.range (s.position + 1)).reverse
  forward : ∀ x ∈ s.strides, x.start < x.stop ∧ x.stop ≤ l.tokens.length

theorem Trail.Sound.visited_le {l : TokenLine} {s : Trail} (h : s.Sound l) :
    ∀ p ∈ s.visited, p ≤ l.tokens.length := by
  intro p hp
  rw [h.visited_eq, List.mem_reverse, List.mem_range] at hp
  exact Nat.le_trans (Nat.le_of_lt_succ hp) h.position_le

/-- How a part of a run ends that began at the position `p` beside the reading `r`. -/
def EndsBeside {α : Type} (l : TokenLine) (p : Nat) (r : Reading)
    (post : α → Nat → Reading → Prop) (s : Trail) : Except Halt α → Prop
  | .ok a => ∃ r', l.outcome r p = l.outcome r' s.position ∧ post a s.position r'
  | .error (.refused e) => l.outcome r p = .error e
  | .error .crashed => False

/-- **A part of a run, beside a reading**: from the position `p` on it ends with a sound trail. If
it has a result, `post` holds of it, of the position behind it and of some reading that makes of
the tokens left what `r` makes of those from `p` on. If it refuses a token, so does `r`. -/
def Follows {α : Type} (l : TokenLine) (m : Descent α) (p : Nat) (r : Reading)
    (post : α → Nat → Reading → Prop) : Prop :=
  ∀ s : Trail, s.Sound l → s.position = p →
    ∃ x s', go m s = some (x, s') ∧ s'.Sound l ∧ EndsBeside l p r post s' x

namespace Follows

variable {α β : Type} {tokens : Tokens} {l : TokenLine} {p start : Nat} {t : Token}
  {r r' : Reading} {m : Descent α} {f : α → Descent β} {post post₁ : α → Nat → Reading → Prop}
  {post' : β → Nat → Reading → Prop}

protected theorem pure {a : α} (h : post a p r) : Follows l (pure a) p r post := by
  rintro s hs rfl
  exact ⟨.ok a, s, rfl, hs, r, rfl, h⟩

protected theorem bind (h : Follows l m p r post)
    (hf : ∀ a q r', q ≤ l.tokens.length → post a q r' → Follows l (f a) q r' post') :
    Follows l (m >>= f) p r post' := by
  intro s hs hp
  obtain ⟨x, s', hgo, hs', hx⟩ := h s hs hp
  cases x with
  | error halt =>
    cases halt with
    | crashed => exact hx.elim
    | refused e => exact ⟨.error (.refused e), s', by rw [go_bind, hgo]; rfl, hs', hx⟩
  | ok a =>
    obtain ⟨r', houtcome, hpost⟩ := hx
    obtain ⟨y, s'', hgo', hs'', hy⟩ := hf a _ r' hs'.position_le hpost s' hs' rfl
    refine ⟨y, s'', by rw [go_bind, hgo]; exact hgo', hs'', ?_⟩
    simpa only [EndsBeside, houtcome] using hy

/-- Another reading may be put beside the run that makes the same of the tokens. -/
theorem congr (h : Follows l m p r' post) (houtcome : l.outcome r p = l.outcome r' p) :
    Follows l m p r post := by
  intro s hs hp
  obtain ⟨x, s', hgo, hs', hx⟩ := h s hs hp
  refine ⟨x, s', hgo, hs', ?_⟩
  simpa only [EndsBeside, houtcome] using hx

theorem mono (h : Follows l m p r post)
    (hpost : ∀ a q r', q ≤ l.tokens.length → post a q r' → post₁ a q r') :
    Follows l m p r post₁ := by
  have hpure := h.bind fun a q r' hq ha => Follows.pure (hpost a q r' hq ha)
  rwa [bind_pure] at hpure

/-! ### Rules for the smallest parts -/

protected theorem position : Follows l position p r fun a q r' => a = p ∧ q = p ∧ r' = r := by
  rintro s hs rfl
  exact ⟨_, s, go_position s, hs, r, rfl, rfl, rfl, rfl⟩

theorem position_bind {f : Nat → Descent β} (hf : Follows l (f p) p r post') :
    Follows l (position >>= f) p r post' := by
  refine Follows.position.bind ?_
  rintro _ _ _ - ⟨rfl, rfl, rfl⟩
  exact hf

theorem note (hstart : start < p) : Follows l (note start) p r fun _ q r' => q = p ∧ r' = r := by
  rintro s hs rfl
  refine ⟨_, _, go_note start s, ?_, r, rfl, rfl, rfl⟩
  exact ⟨hs.position_le, hs.visited_eq,
    List.forall_mem_cons.mpr ⟨⟨hstart, hs.position_le⟩, hs.forward⟩⟩

theorem note_bind {f : Unit → Descent β} (hstart : start < p) (hf : Follows l (f ()) p r post') :
    Follows l (Descent.note start >>= f) p r post' := by
  refine (note hstart).bind ?_
  rintro _ _ _ - ⟨rfl, rfl⟩
  exact hf

theorem arrive {a : α} (hstart : start < p) (h : post a p r) :
    Follows l (arrive start a) p r post :=
  note_bind hstart (.pure h)

/-- Looking at a token changes nothing. -/
theorem current_bind {f : Token → Descent β} (ht : Here tokens l p t)
    (hf : Follows l (f t) p r post') : Follows l (tokens.current >>= f) p r post' := by
  have hcurrent : Follows l tokens.current p r fun a q r' => a = t ∧ q = p ∧ r' = r := by
    rintro s hs rfl
    exact ⟨_, s, go_current ht.get, hs, r, rfl, rfl, rfl, rfl⟩
  refine hcurrent.bind ?_
  rintro _ _ _ - ⟨rfl, rfl, rfl⟩
  exact hf

/-- **A token is passed where the reading takes it**, and the position moves. -/
theorem advance_bind {f : Unit → Descent β} (hl : Carries tokens l) (ht : Here tokens l p t)
    (hstep : r.step t = .ok r') (hf : Follows l (f ()) (p + 1) r' post') :
    Follows l (tokens.advance >>= f) p r post' := by
  have hp : p + 1 ≤ l.tokens.length := ht.lt_of_step hstep
  have hadvance : Follows l tokens.advance p r fun _ q r'' => q = p + 1 ∧ r'' = r' := by
    rintro s hs rfl
    refine ⟨_, _, go_advance (Nat.lt_of_le_of_lt hp hl.length_lt), ?_, r',
      ht.outcome_of_step hstep, rfl, rfl⟩
    refine ⟨hp, ?_, hs.forward⟩
    rw [List.range_succ, List.reverse_concat, hs.visited_eq]
  refine hadvance.bind ?_
  rintro _ _ _ - ⟨rfl, rfl⟩
  exact hf

/-- A token is refused where the reading refuses it. -/
theorem fail {as : List Expected} (ht : Here tokens l p t)
    (hopen : t.kind = .endMarker → r.Open) (hstep : r.step t = .error (.expected as)) :
    Follows l (tokens.fail as) p r post := by
  rintro s hs rfl
  exact ⟨_, s, go_fail ht.get, hs, ht.outcome_of_refused hopen hstep⟩

/-- A number is refused where the reading refuses it. -/
theorem badNumber (ht : Here tokens l p t) (hstep : r.step t = .error .badNumber) :
    Follows l (throw (.refused (.lexical (.invalidNumber t.text t.span.start))) : Descent α) p r
      post := by
  rintro s hs rfl
  exact ⟨_, s, rfl, hs, ht.outcome_of_badNumber hstep⟩

/-- One kind of token is expected where the reading takes that one alone. -/
theorem expect_bind {k : Kind} {f : Token → Descent β} (hl : Carries tokens l)
    (ht : Here tokens l p t) (hopen : r.Open)
    (hstep : r.step t = if t.kind = k then .ok r' else .error (.expected [.token k]))
    (hf : t.kind = k → Follows l (f t) (p + 1) r' post') :
    Follows l (tokens.expect k >>= f) p r post' := by
  simp only [Tokens.expect, bind_assoc]
  refine current_bind ht ?_
  by_cases hk : t.kind = k
  · simp only [if_pos hk, bind_assoc, pure_bind] at hstep ⊢
    exact advance_bind hl ht hstep (hf hk)
  · simp only [if_neg hk] at hstep ⊢
    have hfail : Follows l (tokens.fail [.token k] : Descent Token) p r
        fun _ _ _ => False := fail ht (fun _ => hopen) hstep
    exact hfail.bind fun _ _ _ _ h => h.elim

/-- Behind an element a comma leads to the next one, and one kind of token closes the bracket. -/
theorem separator {r₁ r₂ : Reading} {close : Kind} {more : Descent α} {a : α}
    (hl : Carries tokens l) (ht : Here tokens l p t) (hstart : start < p) (hopen : r.Open)
    (hstep : r.step t =
      if t.kind = .comma then .ok r₁ else if t.kind = close then .ok r₂
      else .error (.expected [.token .comma, .token close]))
    (hmore : p + 1 ≤ l.tokens.length → Follows l more (p + 1) r₁ post)
    (hdone : post a (p + 1) r₂) :
    Follows l
      (if t.kind = .comma then do
        tokens.advance
        Descent.note start
        more
      else if t.kind = close then do
        tokens.advance
        Descent.note start
        return a
      else tokens.fail [.token .comma, .token close]) p r post := by
  by_cases hcomma : t.kind = .comma
  · simp only [if_pos hcomma] at hstep ⊢
    exact advance_bind hl ht hstep (note_bind (by omega) (hmore (ht.lt_of_step hstep)))
  · by_cases hclose : t.kind = close
    · simp only [if_neg hcomma, if_pos hclose] at hstep ⊢
      exact advance_bind hl ht hstep (note_bind (by omega) (.pure hdone))
    · simp only [if_neg hcomma, if_neg hclose] at hstep ⊢
      exact fail ht (fun _ => hopen) hstep

end Follows

end Descent

end ShapeFault
