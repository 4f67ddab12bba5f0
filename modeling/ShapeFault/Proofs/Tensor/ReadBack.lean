import ShapeFault.Proofs.Decimal.Text
import ShapeFault.Tensor.Reader

/-!
# Values are read back from their texts

A reader of values tries tuples, words, integers and floats in this order. The texts of values keep
out of each other's way: only that of a tensor's shape starts with a parenthesis, the words have
letters that no number has (`Value.ofChars?_of_isFigure`), and no text of a float is one of an
integer. A tuple is taken apart at its commas; its parts are the digits of the sizes, whatever the
number of sizes (`Value.sizeTexts_tuple`), so a shape is told by its text as well.
-/

namespace ShapeFault

open Decimal (digitChars isFigure)

/-! ### Blanks and parentheses -/

namespace Text

variable {cs : List Char}

/-- Blanks around a text do not matter. -/
theorem trimChars_append {front back : List Char} (hfront : ∀ c ∈ front, isBlank c)
    (hback : ∀ c ∈ back, isBlank c) (cs : List Char) :
    trimChars (front ++ cs ++ back) = trimChars cs := by
  have hback' : ∀ c ∈ back.reverse, isBlank c := fun c hc => hback c (List.mem_reverse.mp hc)
  have hdrop : back.dropWhile isBlank = [] := by
    rw [← List.append_nil back, List.dropWhile_append_of_pos hback, List.dropWhile_nil]
  rw [trimChars, List.append_assoc, List.dropWhile_append_of_pos hfront, List.dropWhile_append]
  split
  case isTrue hblank => rw [hdrop, trimChars, List.isEmpty_iff.mp hblank]
  case isFalse => rw [List.reverse_append, List.dropWhile_append_of_pos hback', trimChars]

theorem trimChars_of_forall (h : ∀ c ∈ cs, isBlank c = false) : trimChars cs = cs := by
  cases cs with
  | nil => rfl
  | cons c cs =>
    have hlast := List.getLast?_eq_some_getLast (List.cons_ne_nil c cs)
    exact trimChars_eq ⟨c, rfl, h c List.mem_cons_self⟩ ⟨_, hlast, h _ (List.getLast_mem _)⟩

theorem parenthesized?_eq (cs : List Char) : parenthesized? ('(' :: (cs ++ [')'])) = some cs := by
  simp [parenthesized?]

theorem parenthesized?_eq_none (h : '(' ∉ cs) : parenthesized? cs = none := by
  unfold parenthesized?
  split
  · exact absurd List.mem_cons_self h
  · rfl

/-- The first piece of a text ends in front of the first separator. -/
theorem splitAt_append {separator : Char} {piece : List Char} (h : separator ∉ piece)
    (cs : List Char) :
    splitAt separator (piece ++ separator :: cs) = piece :: splitAt separator cs := by
  induction piece with
  | nil => exact if_pos rfl
  | cons c piece ih =>
    rw [List.cons_append, splitAt, if_neg (List.ne_of_not_mem_cons h).symm,
      ih (List.not_mem_of_not_mem_cons h)]

theorem splitAt_of_notMem {separator : Char} (h : separator ∉ cs) :
    splitAt separator cs = [cs] := by
  induction cs with
  | nil => rfl
  | cons c cs ih =>
    rw [splitAt, if_neg (List.ne_of_not_mem_cons h).symm, ih (List.not_mem_of_not_mem_cons h)]

theorem splitAt_ne_nil (separator : Char) (cs : List Char) : splitAt separator cs ≠ [] := by
  cases cs with
  | nil => exact List.cons_ne_nil _ _
  | cons c cs =>
    rw [splitAt]
    split
    · exact List.cons_ne_nil _ _
    · split <;> exact List.cons_ne_nil _ _

end Text

namespace Value

/-! ### The sizes in a tuple -/

/-- The texts of the sizes between the parentheses of a tuple. -/
def sizeTexts (cs : List Char) : List (List Char) :=
  ((Text.splitAt ',' cs).map Text.trimChars).filter (· ≠ [])

theorem sizes?_eq (cs : List Char) : sizes? cs = (sizeTexts cs).mapM Decimal.size? :=
  rfl

theorem comma_notMem_digitChars (n : Nat) : ',' ∉ digitChars n := fun h =>
  absurd (Decimal.isDigit_of_mem_digitChars h) (by decide)

theorem trimChars_digitChars (n : Nat) : Text.trimChars (digitChars n) = digitChars n :=
  Text.trimChars_of_forall fun _ h =>
    Text.isBlank_eq_false_of_isDigit (Decimal.isDigit_of_mem_digitChars h)

theorem sizeTexts_digitChars (n : Nat) : sizeTexts (digitChars n) = [digitChars n] := by
  rw [sizeTexts, Text.splitAt_of_notMem (comma_notMem_digitChars n), List.map_singleton,
    trimChars_digitChars, List.filter_cons_of_pos (by simpa using Decimal.digitChars_ne_nil)]
  rfl

theorem sizeTexts_digitChars_comma (n : Nat) (cs : List Char) :
    sizeTexts (digitChars n ++ ',' :: cs) = digitChars n :: sizeTexts cs := by
  rw [sizeTexts, Text.splitAt_append (comma_notMem_digitChars n), List.map_cons,
    trimChars_digitChars, List.filter_cons_of_pos (by simpa using Decimal.digitChars_ne_nil)]
  rfl

theorem sizeTexts_blank (cs : List Char) : sizeTexts (' ' :: cs) = sizeTexts cs := by
  obtain ⟨piece, pieces, hcs⟩ := List.exists_cons_of_ne_nil (Text.splitAt_ne_nil ',' cs)
  have htrim : Text.trimChars (' ' :: piece) = Text.trimChars piece := by
    have hblank : ∀ c ∈ [' '], Text.isBlank c := List.forall_mem_singleton.mpr (by decide)
    have happend := Text.trimChars_append hblank (List.forall_mem_nil _) piece
    rwa [List.append_nil] at happend
  have hsplit : Text.splitAt ',' (' ' :: cs) = (' ' :: piece) :: pieces := by
    rw [Text.splitAt, if_neg (by decide), hcs]
  rw [sizeTexts, sizeTexts, hsplit, hcs, List.map_cons, List.map_cons, htrim]

theorem sizeTexts_intercalate (s : Shape) :
    sizeTexts ([',', ' '].intercalate (s.map digitChars)) = s.map digitChars := by
  induction s with
  | nil => decide
  | cons n s ih =>
    cases s with
    | nil => exact (congrArg sizeTexts List.intercalate_singleton).trans (sizeTexts_digitChars n)
    | cons m s =>
      rw [List.map_cons, List.map_cons, List.intercalate_cons_cons, List.append_assoc,
        List.cons_append, List.cons_append, List.nil_append, sizeTexts_digitChars_comma,
        sizeTexts_blank, ← List.map_cons, ih]

/-- **The text of a shape** is a tuple of the digits of its sizes. -/
theorem sizeTexts_tuple (s : Shape) :
    ∃ cs, s.text.toList = '(' :: (cs ++ [')']) ∧ sizeTexts cs = s.map digitChars := by
  unfold Shape.text
  split
  case h_1 n =>
    refine ⟨digitChars n ++ [','], ?_, ?_⟩
    · rw [String.toList_append, String.toList_append, Nat.toList_repr]
      simp [digitChars]
    · rw [sizeTexts_digitChars_comma]
      rfl
  case h_2 =>
    refine ⟨[',', ' '].intercalate (s.map digitChars), ?_, sizeTexts_intercalate s⟩
    have hdigits : (s.map Nat.repr).map String.toList = s.map digitChars := by
      rw [List.map_map]
      exact List.map_congr_left fun n _ => Nat.toList_repr
    rw [String.toList_append, String.toList_append, String.toList_intercalate, hdigits]
    rfl

theorem mapM_size?_digitChars {s : Shape} (h : ∀ n ∈ s, n < Word.count) :
    (s.map digitChars).mapM Decimal.size? = some s := by
  induction s with
  | nil => rfl
  | cons n s ih =>
    obtain ⟨hn, hs⟩ := List.forall_mem_cons.mp h
    rw [List.map_cons, List.mapM_cons, Decimal.size?_digitChars hn, ih hs]
    rfl

/-! ### The texts of values -/

/-- The text by which a value is given from outside: a tensor is told by its shape. -/
def givenText : Value → String
  | tensor s => s.text
  | v => v.text

/-- The values that can be given by a text: integers and sizes within words, floats, booleans and
`None`. -/
def Given : Value → Prop
  | int n => Word.Fits n
  | tensor s => ∀ n ∈ s, n < Word.count
  | float _ | bool _ | none => True
  | _ => False

/-- **A text of figures** is neither a tuple nor a word. -/
theorem ofChars?_of_isFigure {cs : List Char} (h : ∀ c ∈ cs, isFigure c) :
    ofChars? cs =
      match Decimal.int64? cs with
      | some n => some (int n)
      | Option.none => (Decimal.float? cs).map float := by
  have hne : ∀ {word : List Char}, word.all isFigure = false → cs ≠ word := by
    rintro word hword rfl
    exact absurd (List.all_eq_true.mpr h) (Bool.not_eq_true _ ▸ hword)
  have hparen : '(' ∉ cs := fun hc => absurd (h _ hc) (by decide)
  have htrue : cs ≠ "True".toList := hne (by decide)
  have hfalse : cs ≠ "False".toList := hne (by decide)
  have hnone : cs ≠ "None".toList := hne (by decide)
  rw [ofChars?, Text.parenthesized?_eq_none hparen]
  exact (if_neg htrue).trans ((if_neg hfalse).trans (if_neg hnone))

theorem ofChars?_shape_text {s : Shape} (h : ∀ n ∈ s, n < Word.count) :
    ofChars? s.text.toList = some (tensor s) := by
  obtain ⟨cs, htext, hsizes⟩ := sizeTexts_tuple s
  rw [ofChars?, htext, Text.parenthesized?_eq]
  dsimp only
  rw [sizes?_eq, hsizes, mapM_size?_digitChars h, Option.map_some]

variable {v : Value}

theorem ofChars?_givenText (hv : v.Given)
    (hfloat : ∀ x, v = float x → Decimal.float? (Decimal.floatText x).toList = some x) :
    ofChars? v.givenText.toList = some v := by
  cases v with
  | int n =>
    have hfigures : ∀ c ∈ (Decimal.intText n).toList, isFigure c := fun _ =>
      Decimal.isFigure_of_mem_intText
    exact (ofChars?_of_isFigure hfigures).trans (by rw [Decimal.int64?_intText hv])
  | float x =>
    have hfigures := (Decimal.marked_floatText x).figures
    refine (ofChars?_of_isFigure hfigures).trans ?_
    rw [Decimal.int64?_floatText]
    dsimp only
    rw [hfloat x rfl, Option.map_some]
  | bool b => cases b <;> rfl
  | none => rfl
  | tensor s => exact ofChars?_shape_text hv
  | _ => cases hv

/-- Nothing is trimmed from the text of a value. -/
theorem trimChars_givenText (hv : v.Given) :
    Text.trimChars v.givenText.toList = v.givenText.toList := by
  have hfigures : ∀ {cs : List Char}, (∀ c ∈ cs, isFigure c) → Text.trimChars cs = cs :=
    fun h => Text.trimChars_of_forall fun c hc => Decimal.isBlank_eq_false_of_isFigure (h c hc)
  cases v with
  | int n => exact hfigures fun _ => Decimal.isFigure_of_mem_intText
  | float x => exact hfigures (Decimal.marked_floatText x).figures
  | bool b => cases b <;> decide
  | none => decide
  | tensor s =>
    obtain ⟨cs, htext, -⟩ := sizeTexts_tuple s
    refine Text.trimChars_eq ⟨'(', ?_, by decide⟩ ⟨')', ?_, by decide⟩
    · rw [givenText, htext]
      rfl
    · rw [givenText, htext, ← List.cons_append, List.getLast?_concat]
      rfl
  | _ => cases hv

end Value

theorem Shape.text_injective : Function.Injective Shape.text := by
  intro s t h
  obtain ⟨cs, hs, hsizes⟩ := Value.sizeTexts_tuple s
  obtain ⟨ds, ht, htsizes⟩ := Value.sizeTexts_tuple t
  have hinner : some cs = some ds := by
    rw [← Text.parenthesized?_eq cs, ← Text.parenthesized?_eq ds, ← hs, ← ht, h]
  have hdigits : s.map digitChars = t.map digitChars := by
    rw [← hsizes, ← htsizes, Option.some.inj hinner]
  exact (List.map_inj_right fun _ _ hnm => Decimal.digitChars_injective hnm).mp hdigits

/-- **A value is read back from its text**, with any blanks around it. A float is, as far as the
reader of floats gives it back: its text is never taken for a tuple, a word or an integer before. So
**a shape is told by its text**, however many sizes it has. -/
theorem values_are_read_back :
    (∀ (v : Value) (front back : String), v.Given →
      (∀ x, v = .float x → Decimal.float? (Decimal.floatText x).toList = some x) →
      (∀ c ∈ front.toList, Text.isBlank c) → (∀ c ∈ back.toList, Text.isBlank c) →
      Value.read? (front ++ v.givenText ++ back) = some v) ∧
    ∀ s t : Shape, s.text = t.text → s = t := by
  refine ⟨fun v front back hv hfloat hfront hback => ?_, fun s t h => Shape.text_injective h⟩
  rw [Value.read?, String.toList_append, String.toList_append,
    Text.trimChars_append hfront hback, Value.trimChars_givenText hv,
    Value.ofChars?_givenText hv hfloat]

/-- A negative integer, a tuple of one size and one of none, and a float between blanks. -/
theorem values_read_back_from_spaced_texts :
    Value.read? "-7" = some (.int (-7)) ∧ Value.read? "(3,)\n" = some (.tensor [3]) ∧
      Value.read? "()" = some (.tensor []) ∧ Value.read? " -1e-5\t" = some (.float (-0.00001)) := by
  have hfloat : ∀ x, Value.float (-0.00001) = .float x →
      Decimal.float? (Decimal.floatText x).toList = some x := by
    rintro x ⟨⟩
    decide +kernel
  have hfits : Word.Fits (-7) := by decide
  have hsizes : ∀ n ∈ [3], n < Word.count := by decide
  have hint : "" ++ (Value.int (-7)).givenText ++ "" = "-7" := by decide +kernel
  have hone : "" ++ (Value.tensor [3]).givenText ++ "\n" = "(3,)\n" := by decide +kernel
  have hno : "" ++ (Value.tensor []).givenText ++ "" = "()" := by decide +kernel
  have hspaced : " " ++ (Value.float (-0.00001)).givenText ++ "\t" = " -1e-5\t" := by
    decide +kernel
  rw [← hint, ← hone, ← hno, ← hspaced]
  refine ⟨?_, ?_, ?_, ?_⟩
  · exact values_are_read_back.1 (.int (-7)) "" "" hfits nofun nofun nofun
  · exact values_are_read_back.1 (.tensor [3]) "" "\n" hsizes nofun nofun
      (List.all_eq_true.mp (by decide))
  · exact values_are_read_back.1 (.tensor []) "" "" nofun nofun nofun nofun
  · exact values_are_read_back.1 (.float (-0.00001)) " " "\t" trivial hfloat
      (List.all_eq_true.mp (by decide)) (List.all_eq_true.mp (by decide))

end ShapeFault
