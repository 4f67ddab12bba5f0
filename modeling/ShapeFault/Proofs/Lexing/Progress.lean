import ShapeFault.Proofs.Lexing.Place

/-!
# Reading a line piece by piece

A line is read answer by answer, and reading goes on behind an error. Each reading either makes
progress (`Cursor.Passes`) or gives the last answer that there is (`Cursor.Stays`): the mark of the
end, or an error at a character that is not passed over. A run of readings with progress is
`Cursor.Runs`; each of them shortens the text, so every cursor runs to one that stays
(`Cursor.exists_runs`). A `Stream` gives the answers of this run and then the last one, and
`Cursor.tokens` is what these answers make together (`Cursor.Runs.tokens_eq`).
-/

namespace ShapeFault

/-- What has been read at one place of a line. -/
abbrev Answer :=
  Except LexError Token

namespace Answer

/-- Where the token or the error starts. -/
def place : Answer → Nat
  | .ok t => t.span.start
  | .error e => e.position

/-! ### Answers together -/

/-- The answers are tokens, or tokens up to a first error. -/
theorem oks_or_error (answers : List Answer) :
    (∃ ts : List Token, answers = ts.map .ok) ∨
      ∃ (ts : List Token) (e : LexError) (rest : List Answer),
        answers = ts.map .ok ++ .error e :: rest := by
  induction answers with
  | nil => exact Or.inl ⟨[], rfl⟩
  | cons a answers ih =>
    cases a with
    | error e => exact Or.inr ⟨[], e, answers, rfl⟩
    | ok t =>
      rcases ih with ⟨ts, rfl⟩ | ⟨ts, e, rest, rfl⟩
      · exact Or.inl ⟨t :: ts, rfl⟩
      · exact Or.inr ⟨t :: ts, e, rest, rfl⟩

/-- Tokens in front are kept. -/
theorem mapM_map_ok_append (ts : List Token) (rest : List Answer) :
    (ts.map Except.ok ++ rest : List Answer).mapM id = (rest.mapM id).map (ts ++ ·) := by
  induction ts with
  | nil => cases h : rest.mapM id <;> simp [h, Except.map]
  | cons t ts ih =>
    rw [List.map_cons, List.cons_append, List.mapM_cons, ih]
    cases rest.mapM id <;> rfl

theorem mapM_map_ok (ts : List Token) : (ts.map .ok : List Answer).mapM id = .ok ts := by
  have h := mapM_map_ok_append ts []
  rw [List.append_nil] at h
  rw [h, List.mapM_nil]
  simp [pure, Except.pure, Except.map]

theorem mapM_map_ok_append_error (ts : List Token) (e : LexError) (rest : List Answer) :
    (ts.map .ok ++ .error e :: rest : List Answer).mapM id = .error e := by
  rw [mapM_map_ok_append, List.mapM_cons]
  rfl

variable {answers : List Answer} {ts : List Token} {e : LexError}

theorem mapM_eq_ok_iff : answers.mapM id = .ok ts ↔ answers = ts.map .ok := by
  constructor
  · intro h
    rcases oks_or_error answers with ⟨us, rfl⟩ | ⟨us, e, rest, rfl⟩
    · rw [mapM_map_ok] at h
      rw [Except.ok.inj h]
    · rw [mapM_map_ok_append_error] at h
      cases h
  · rintro rfl
    exact mapM_map_ok ts

theorem mapM_eq_error_iff : answers.mapM id = .error e ↔
    ∃ (ts : List Token) (rest : List Answer), answers = ts.map .ok ++ .error e :: rest := by
  constructor
  · intro h
    rcases oks_or_error answers with ⟨ts, rfl⟩ | ⟨ts, e', rest, rfl⟩
    · rw [mapM_map_ok] at h
      cases h
    · rw [mapM_map_ok_append_error] at h
      exact ⟨ts, rest, by rw [Except.error.inj h]⟩
  · rintro ⟨ts, rest, rfl⟩
    exact mapM_map_ok_append_error ts e rest

/-- The answers make tokens together exactly if there is no error among them. -/
theorem exists_mapM_eq_ok_iff :
    (∃ ts, answers.mapM id = .ok ts) ↔ ∀ e, .error e ∉ answers := by
  simp only [mapM_eq_ok_iff]
  constructor
  · rintro ⟨ts, rfl⟩ e he
    obtain ⟨t, -, ht⟩ := List.mem_map.mp he
    cases ht
  · intro h
    rcases oks_or_error answers with hoks | ⟨ts, e, rest, rfl⟩
    · exact hoks
    · exact absurd (List.mem_append_right _ List.mem_cons_self) (h e)

end Answer

/-! ### One reading -/

namespace Cursor

/-- One reading that makes progress: the answer `a`, and the cursor `s'` behind it. -/
structure Passes (s : Cursor) (a : Answer) (s' : Cursor) : Prop where
  next : s.next = (a, s')
  kind_ne : ∀ t, a = .ok t → t.kind ≠ .endMarker
  /-- a character stands at the place of the answer -/
  exists_rest : ∃ c cs, s.skipTrivia.rest = c :: cs
  place_eq : a.place = s.skipTrivia.offset
  place_lt : a.place < s'.offset
  shorter : s'.rest.length < s.rest.length

/-- The cursor gives the answer `last`, and no other one any more. -/
inductive Stays (s : Cursor) : Answer → Prop where
  | ending (hskip : Lexeme.skip s.rest = []) : Stays s (.ok (Token.ending s.skipTrivia.offset))
  /-- a character that no token starts with is not passed over, unless it is an exclamation mark -/
  | stuck {c : Char} {cs : List Char} (hskip : Lexeme.skip s.rest = c :: cs)
      (hfront : Front.of c cs = .unknown 0) (hc : c ≠ '!') :
      Stays s (.error (.unexpectedCharacter c s.skipTrivia.offset))

variable {line : String} {s s' : Cursor} {a last : Answer}

/-- **One reading makes progress** unless it gives the last answer. -/
theorem passes_or_stays (s : Cursor) : (∃ a s', s.Passes a s') ∨ ∃ last, s.Stays last := by
  cases hskip : Lexeme.skip s.rest with
  | nil => exact Or.inr ⟨_, .ending hskip⟩
  | cons c cs =>
    rcases Front.length_pos_or c cs with hpos | ⟨hfront, hc⟩
    · have hrest : s.skipTrivia.rest = c :: cs := hskip
      have hplace : Answer.place (s.skipTrivia.answer c (Front.of c cs)) = s.skipTrivia.offset := by
        cases Front.of c cs <;> rfl
      refine Or.inl ⟨_, _, next_of_rest hskip, ?_, ⟨c, cs, hrest⟩, hplace, ?_, ?_⟩
      · intro t ht
        cases hfront : Front.of c cs with
        | token k n =>
          rw [hfront] at ht
          cases ht
          exact Front.kind_ne_endMarker hfront
        | largeNumber n | openString n | unknown n =>
          rw [hfront] at ht
          cases ht
      · rw [hplace]
        exact offset_lt_advance hrest hpos
      · have hle : s.skipTrivia.rest.length ≤ s.rest.length := length_rest_advance_le s _
        simp only [advance, List.length_drop, hrest, List.length_cons] at hle ⊢
        omega
    · exact Or.inr ⟨_, .stuck hskip hfront hc⟩

namespace Passes

theorem offset_le_place (h : s.Passes a s') : s.offset ≤ a.place := by
  rw [h.place_eq]
  exact offset_le_advance s _

/-- Each answer has a character of the line to itself. -/
theorem exists_char (h : s.Passes a s') (hs : s.On line) : ∃ pre c post,
    line = pre ++ String.singleton c ++ post ∧ pre.utf8ByteSize = a.place := by
  obtain ⟨c, cs, hrest⟩ := h.exists_rest
  obtain ⟨pre, hline, hoffset⟩ := hs.skipTrivia
  refine ⟨pre, c, String.ofList cs, ?_, by rw [h.place_eq, hoffset]⟩
  rw [hline, ofList_rest hrest, String.append_assoc]

theorem on (h : s.Passes a s') (hs : s.On line) : s'.On line := by
  have hnext := hs.next
  rwa [h.next] at hnext

end Passes

namespace Stays

/-- The last answer stands behind everything that has been passed over. -/
theorem offset_le_place (h : s.Stays last) : s.offset ≤ last.place := by
  cases h <;> exact offset_le_advance s _

theorem next_eq (h : s.Stays last) : s.next = (last, s.skipTrivia) := by
  cases h with
  | ending hskip => exact next_of_rest_nil hskip
  | stuck hskip hfront =>
    rw [next_of_rest hskip, hfront]
    simp [answer, Front.length, advance, byteLength]

/-- A stuck cursor stays stuck. -/
theorem skipTrivia {e : LexError} (h : s.Stays (.error e)) : s.skipTrivia.Stays (.error e) := by
  cases h with
  | @stuck c cs hskip hfront hc =>
    have hsolid := Lexeme.solid_of_skip hskip
    have hrest : s.skipTrivia.rest = c :: cs := hskip
    have hskip' : Lexeme.skip s.skipTrivia.rest = c :: cs := by
      rw [hrest, Lexeme.skip_of_solid hsolid]
    have hstays := Stays.stuck hskip' hfront hc
    rwa [skipTrivia_of_solid hrest hsolid] at hstays

end Stays

/-! ### Runs of readings -/

/-- Readings with progress in a row, with their answers. -/
inductive Runs : Cursor → List Answer → Cursor → Prop where
  | refl (s : Cursor) : Runs s [] s
  | step {s s' s'' : Cursor} {a : Answer} {items : List Answer} (hpass : s.Passes a s')
      (hrest : Runs s' items s'') : Runs s (a :: items) s''

/-- **Every cursor runs to one that stays**: each reading on the way shortens the text. -/
theorem exists_runs (s : Cursor) : ∃ items s' last, Runs s items s' ∧ s'.Stays last := by
  induction hn : s.rest.length using Nat.strongRecOn generalizing s with
  | ind n ih =>
    rcases s.passes_or_stays with ⟨a, s', hpass⟩ | ⟨last, hstays⟩
    · obtain ⟨items, s'', last, hruns, hstays⟩ := ih _ (hn ▸ hpass.shorter) s' rfl
      exact ⟨a :: items, s'', last, .step hpass hruns, hstays⟩
    · exact ⟨[], s, last, .refl s, hstays⟩

namespace Runs

variable {items : List Answer}

/-- Each answer takes at least one character. -/
theorem length_le (h : Runs s items s') : items.length + s'.rest.length ≤ s.rest.length := by
  induction h with
  | refl s => simp
  | step hpass _ ih =>
    have hlt := hpass.shorter
    rw [List.length_cons]
    omega

theorem on (h : Runs s items s') (hs : s.On line) : s'.On line := by
  induction h with
  | refl => exact hs
  | step hpass _ ih => exact ih (hpass.on hs)

theorem exists_char (h : Runs s items s') (hs : s.On line) : ∀ a ∈ items, ∃ pre c post,
    line = pre ++ String.singleton c ++ post ∧ pre.utf8ByteSize = a.place := by
  induction h with
  | refl => nofun
  | step hpass _ ih => exact List.forall_mem_cons.mpr ⟨hpass.exists_char hs, ih (hpass.on hs)⟩

theorem kind_ne (h : Runs s items s') : ∀ t : Token, .ok t ∈ items → t.kind ≠ .endMarker := by
  induction h with
  | refl => nofun
  | step hpass _ ih =>
    intro t ht
    rcases List.mem_cons.mp ht with rfl | ht
    · exact hpass.kind_ne t rfl
    · exact ih t ht

/-- **Places increase** along a run, up to the place of the last answer. -/
theorem places (h : Runs s items s') (hstays : s'.Stays last) :
    (items ++ [last]).Pairwise (fun a b => a.place < b.place) ∧
      ∀ a ∈ items ++ [last], s.offset ≤ a.place := by
  induction h with
  | refl =>
    exact ⟨List.pairwise_singleton _ _, List.forall_mem_singleton.mpr hstays.offset_le_place⟩
  | step hpass _ ih =>
    obtain ⟨hincrease, hbehind⟩ := ih hstays
    have hlt := hpass.place_lt
    have hle := hpass.offset_le_place
    refine ⟨List.pairwise_cons.mpr ⟨fun b hb => ?_, hincrease⟩,
      List.forall_mem_cons.mpr ⟨hle, fun b hb => ?_⟩⟩
    · exact Nat.lt_of_lt_of_le hlt (hbehind b hb)
    · exact Nat.le_trans (Nat.le_of_lt (Nat.lt_of_le_of_lt hle hlt)) (hbehind b hb)

/-- The tokens from a cursor on, or the first error, are those of the answers to it. -/
theorem tokens_eq (h : Runs s items s') (hstays : s'.Stays last) :
    s.tokens = (items ++ [last]).mapM id := by
  induction h with
  | refl s =>
    have hnext := hstays.next_eq
    cases hstays with
    | ending => rw [tokens_of_next_ok hnext]; rfl
    | stuck => rw [tokens_of_next_error hnext]; rfl
  | @step s s' s'' a items hpass _ ih =>
    rw [List.cons_append, List.mapM_cons, ← ih hstays]
    cases a with
    | error e => rw [tokens_of_next_error hpass.next]; rfl
    | ok t =>
      rw [tokens_of_next_ok hpass.next, if_neg (hpass.kind_ne t rfl)]
      cases s'.tokens <;> rfl

end Runs

end Cursor

/-! ### The answers of a stream -/

namespace Stream

open Cursor

variable {s s' : Cursor} {a last : Answer} {items : List Answer}

theorem next?_of_next (h : s.next = (a, s')) (ha : ∀ t, a = .ok t → t.kind ≠ .endMarker) :
    (⟨s, false⟩ : Stream).next? = (some a, ⟨s', false⟩) := by
  cases a with
  | error e => simp [next?, h]
  | ok t => simp [next?, h, ha t rfl]

/-- A stream gives the answers of a run first. -/
theorem take_of_runs (h : Runs s items s') (n : Nat) :
    (⟨s, false⟩ : Stream).take (items.length + n) =
      items.map some ++ (⟨s', false⟩ : Stream).take n := by
  induction h with
  | refl => simp
  | @step s s' s'' a items hpass _ ih =>
    have hcount : (a :: items).length + n = items.length + n + 1 := by
      rw [List.length_cons]
      omega
    rw [hcount, take, next?_of_next hpass.next hpass.kind_ne, ih]
    rfl

theorem take_of_finished (n : Nat) :
    (⟨s, true⟩ : Stream).take n = List.replicate n none := by
  induction n with
  | zero => rfl
  | succ n ih => rw [take, List.replicate_succ, ← ih]; rfl

/-- Behind the mark of the end a stream gives nothing. -/
theorem take_of_ending {t : Token} (h : s.Stays (.ok t)) (n : Nat) :
    (⟨s, false⟩ : Stream).take (n + 1) = some (.ok t) :: List.replicate n none := by
  have hnext := h.next_eq
  cases h with
  | ending =>
    have hnext? : (⟨s, false⟩ : Stream).next? =
        (some (.ok (Token.ending s.skipTrivia.offset)), ⟨s.skipTrivia, true⟩) := by
      simp [next?, hnext, Token.ending]
    rw [take, hnext?, take_of_finished]

theorem exists_next?_eq (s : Cursor) :
    ∃ finished, (⟨s, false⟩ : Stream).next? = (some s.next.1, ⟨s.next.2, finished⟩) := by
  obtain ⟨a, s', h⟩ : ∃ a s', s.next = (a, s') := ⟨_, _, rfl⟩
  cases a with
  | error e => exact ⟨false, by simp [next?, h]⟩
  | ok t => exact ⟨t.kind == .endMarker, by simp [next?, h]⟩

theorem on_start (line : String) : (start line).cursor.On line :=
  Cursor.on_start line

/-- The cursor of a stream keeps to the line, so what the stream finds wrong stands there. -/
theorem pointsInto {line : String} {s : Stream} (hs : s.cursor.On line) {e : LexError} {n : Nat}
    (h : some (.error e) ∈ s.take n) : e.PointsInto line := by
  induction n generalizing s with
  | zero => cases h
  | succ n ih =>
    obtain ⟨s, finished⟩ := s
    cases finished with
    | true =>
      rw [take_of_finished] at h
      cases List.eq_of_mem_replicate h
    | false =>
      have hs : s.On line := hs
      obtain ⟨finished, hnext⟩ := exists_next?_eq s
      rw [take, hnext, List.mem_cons] at h
      rcases h with h | h
      · exact hs.pointsInto (Prod.ext (Option.some.inj h).symm rfl)
      · exact @ih ⟨s.next.2, finished⟩ hs.next h

/-- A stuck stream gives the same error again and again. -/
theorem take_of_stuck {e : LexError} (h : s.Stays (.error e)) (n : Nat) :
    (⟨s, false⟩ : Stream).take n = List.replicate n (some (.error e)) := by
  induction n generalizing s with
  | zero => rfl
  | succ n ih => rw [take, next?_of_next h.next_eq nofun, ih h.skipTrivia, List.replicate_succ]

/-- A stream gives the answers of a run and the last one. -/
theorem take_answers (h : Runs s items s') (hstays : s'.Stays last) :
    (⟨s, false⟩ : Stream).take (items.length + 1) = (items ++ [last]).map some := by
  rw [take_of_runs h, List.map_append]
  cases last with
  | ok t => rw [take_of_ending hstays]; rfl
  | error e => rw [take_of_stuck hstays]; rfl

end Stream

/-- An error that ends the tokens of a line is one of the answers to it. -/
theorem exists_mem_take_of_tokenize {line : String} {e : LexError} (h : tokenize line = .error e) :
    ∃ n, some (.error e) ∈ (Stream.start line).take n := by
  obtain ⟨items, s, last, hruns, hstays⟩ := (Cursor.start line).exists_runs
  have htokens : tokenize line = (items ++ [last]).mapM id := hruns.tokens_eq hstays
  obtain ⟨ts, rest, hanswers⟩ := Answer.mapM_eq_error_iff.mp (htokens.symm.trans h)
  refine ⟨items.length + 1, ?_⟩
  rw [Stream.start, Stream.take_answers hruns hstays, hanswers]
  exact List.mem_map_of_mem (List.mem_append_right _ List.mem_cons_self)

theorem pointsInto_of_tokenize {line : String} {e : LexError} (h : tokenize line = .error e) :
    e.PointsInto line := by
  obtain ⟨n, hn⟩ := exists_mem_take_of_tokenize h
  exact Stream.pointsInto (Stream.on_start line) hn

/-- **A line is read to its end, or until reading is stuck.** The answers to a line are `items` and
then `last`. They stand at increasing places, each of the items at a character of its own, so there
are no more of them than characters. The last answer is the mark of the end, and nothing follows, or
it is an error at a character that no token starts with, other than `!`, and this error follows
again and again. `tokenize` succeeds exactly if there is no error among the answers, and finds then
all of them, and otherwise the first error. -/
theorem stream_ends_or_is_stuck (line : String) :
    ∃ (items : List Answer) (last : Answer),
      items.length ≤ line.length ∧
      (items ++ [last]).Pairwise (fun a b => a.place < b.place) ∧
      (∀ a ∈ items, ∃ pre c post,
        line = pre ++ String.singleton c ++ post ∧ pre.utf8ByteSize = a.place) ∧
      (∀ t : Token, .ok t ∈ items → t.kind ≠ .endMarker) ∧
      ((last = .ok (Token.ending line.utf8ByteSize) ∧ ∀ n,
          (Stream.start line).take (items.length + (n + 1)) =
            items.map some ++ some last :: List.replicate n none) ∨
        (∃ c p, c ≠ '!' ∧ last = .error (.unexpectedCharacter c p) ∧ ∀ n,
          (Stream.start line).take (items.length + n) =
            items.map some ++ List.replicate n (some last))) ∧
      ((∃ ts, tokenize line = .ok ts) ↔ ∀ e, .error e ∉ items ++ [last]) ∧
      (∀ ts, tokenize line = .ok ts ↔ items ++ [last] = ts.map .ok) ∧
      ∀ e, tokenize line = .error e ↔ ∃ (ts : List Token) (rest : List Answer),
        items ++ [last] = ts.map .ok ++ .error e :: rest := by
  obtain ⟨items, s, last, hruns, hstays⟩ := (Cursor.start line).exists_runs
  have hstart := Cursor.on_start line
  have htokens : tokenize line = (items ++ [last]).mapM id := hruns.tokens_eq hstays
  refine ⟨items, last, ?_, (hruns.places hstays).1, hruns.exists_char hstart, hruns.kind_ne, ?_, ?_,
    fun ts => ?_, fun e => ?_⟩
  · have hle := hruns.length_le
    rw [Cursor.start, String.length_toList] at hle
    omega
  · cases hends : hstays with
    | ending hskip =>
      have hsize := (hruns.on hstart).skipTrivia.offset_eq hskip
      refine Or.inl ⟨by rw [hsize], fun n => ?_⟩
      exact (Stream.take_of_runs hruns (n + 1)).trans (by rw [Stream.take_of_ending hstays])
    | @stuck c cs _ _ hc =>
      refine Or.inr ⟨c, _, hc, rfl, fun n => ?_⟩
      exact (Stream.take_of_runs hruns n).trans (by rw [Stream.take_of_stuck hstays])
  · rw [htokens]
    exact Answer.exists_mapM_eq_ok_iff
  · rw [htokens]
    exact Answer.mapM_eq_ok_iff
  · rw [htokens]
    exact Answer.mapM_eq_error_iff

/-- The exclamation mark is passed over, the dollar sign is not. -/
example : (Stream.start "é!9$").take 5 =
    [some (.ok ⟨.name, "é", ⟨0, 2⟩⟩), some (.error (.unexpectedCharacter '!' 2)),
      some (.ok ⟨.number, "9", ⟨3, 4⟩⟩), some (.error (.unexpectedCharacter '$' 4)),
      some (.error (.unexpectedCharacter '$' 4))] :=
  rfl

end ShapeFault
