import ShapeFault.Proofs.Lexing.Form
import ShapeFault.Proofs.Source.RoundTrip

/-!
# The ends of a source

The source of an expression starts with the first character of a token and ends with the last one of
a token, and no token has a blank at its ends. So there is nothing to trim from a source
(`Derives.trim_source`).
-/

namespace ShapeFault

open Token (Kind)

namespace Text

/-- The text starts with a character that is no blank. -/
def Starts (s : String) : Prop :=
  ∃ c ∈ s.toList.head?, isBlank c = false

/-- The text ends with a character that is no blank. -/
def Ends (s : String) : Prop :=
  ∃ c ∈ s.toList.getLast?, isBlank c = false

variable {s : String}

theorem Ends.prepend (h : Ends s) (front : String) : Ends (front ++ s) := by
  obtain ⟨c, hc, hblank⟩ := h
  refine ⟨c, ?_, hblank⟩
  rw [String.toList_append, List.getLast?_append, Option.mem_def.mp hc]
  rfl

/-- A text without blanks, unless it is empty. -/
theorem ends_of_forall (hne : s.toList ≠ []) (h : ∀ c ∈ s.toList, isBlank c = false) : Ends s :=
  ⟨s.toList.getLast hne, List.getLast?_eq_some_getLast hne, h _ (List.getLast_mem hne)⟩

theorem dropWhile_isBlank {cs : List Char} (h : ∃ c ∈ cs.head?, isBlank c = false) :
    cs.dropWhile isBlank = cs := by
  obtain ⟨c, hc, hblank⟩ := h
  obtain ⟨cs, rfl⟩ := List.head?_eq_some_iff.mp hc
  exact List.dropWhile_cons_of_neg (by simp [hblank])

theorem trimChars_eq {cs : List Char} (hstarts : ∃ c ∈ cs.head?, isBlank c = false)
    (hends : ∃ c ∈ cs.getLast?, isBlank c = false) : trimChars cs = cs := by
  have hreverse : ∃ c ∈ cs.reverse.head?, isBlank c = false := by
    rwa [List.head?_reverse]
  rw [trimChars, dropWhile_isBlank hstarts, dropWhile_isBlank hreverse, List.reverse_reverse]

theorem trim_eq (hstarts : Starts s) (hends : Ends s) : trim s = s := by
  rw [trim, trimChars_eq hstarts hends, String.ofList_toList]

/-- No blank continues a word. -/
theorem isBlank_eq_false_of_continuesWord {c : Char} (h : continuesWord c) : isBlank c = false := by
  -- the blanks are few, so they can be checked one by one
  have hall : ∀ n ∈ blanks, continuesWord (Char.ofNat n) = false := by decide +kernel
  rw [Bool.eq_false_iff]
  intro hblank
  have hc := hall c.toNat (by simpa [isBlank] using hblank)
  rw [Char.ofNat_toNat, h] at hc
  cases hc

theorem isBlank_eq_false_of_isDigit {c : Char} (h : c.isDigit) : isBlank c = false :=
  isBlank_eq_false_of_continuesWord (by simp [continuesWord, isNumeral, h])

end Text

/-- There is no blank in a number. -/
theorem Lexeme.NumberParts.isBlank_eq_false {ds fs es : List Char} (h : NumberParts ds fs es) :
    ∀ c ∈ ds ++ fs ++ es, Text.isBlank c = false := by
  obtain ⟨hds, hfs, hes⟩ := h
  have hdigits : ∀ {ds : List Char}, (∀ d ∈ ds, d.isDigit) → ∀ d ∈ ds, Text.isBlank d = false :=
    fun hds d hd => Text.isBlank_eq_false_of_isDigit (hds d hd)
  refine List.forall_mem_append.mpr ⟨List.forall_mem_append.mpr ⟨hdigits hds, ?_⟩, ?_⟩
  · cases hfs with
    | none => nofun
    | some hdigits' => exact List.forall_mem_cons.mpr ⟨by decide, hdigits hdigits'⟩
  · cases hes with
    | none => nofun
    | some he hsign _ hdigits' =>
      refine List.forall_mem_cons.mpr ⟨?_, List.forall_mem_append.mpr ⟨?_, hdigits hdigits'⟩⟩
      · rcases he with rfl | rfl <;> decide
      · rcases hsign with rfl | rfl | rfl
        · nofun
        · exact List.forall_mem_singleton.mpr (by decide)
        · exact List.forall_mem_singleton.mpr (by decide)

namespace Token.Genuine

variable {t : Token}

theorem starts (h : t.Genuine) : Text.Starts t.text := by
  obtain ⟨rest, c, cs, hw, hbegins⟩ := h
  exact ⟨c, by rw [hw]; rfl, hbegins.solid.1⟩

/-- The form of a token tells its last character. -/
theorem ends (h : t.Genuine) : Text.Ends t.text := by
  obtain ⟨rest, hstands⟩ := h
  have hne : t.text.toList ≠ [] := by
    obtain ⟨c, cs, hw, -⟩ := hstands
    rw [hw]
    exact List.cons_ne_nil c cs
  have hform := Kind.form_iff_stands.mpr hstands.alone
  generalize hk : t.kind = k at hform
  generalize hw : t.text.toList = w at hform
  cases hform with
  | spelled hspelled =>
    have hall : ∀ k ∈ Kind.punctuation ++ Kind.keywords,
        (k.spelling.toList.all fun c => !Text.isBlank c) = true := by decide
    refine Text.ends_of_forall hne ?_
    rw [hw]
    simpa using hall k (List.mem_append.mpr hspelled)
  | name hc hcs =>
    refine Text.ends_of_forall hne ?_
    rw [hw]
    refine List.forall_mem_cons.mpr ⟨?_, fun d hd => ?_⟩
    · exact Text.isBlank_eq_false_of_continuesWord (Text.continuesWord_of_startsWord hc)
    · exact Text.isBlank_eq_false_of_continuesWord (hcs d hd)
  | number hnumber =>
    obtain ⟨ds, fs, es, rfl, hparts, -⟩ := hnumber
    refine Text.ends_of_forall hne ?_
    rw [hw]
    exact hparts.isBlank_eq_false
  | @string quote body hquote =>
    refine ⟨quote, ?_, by rcases hquote with rfl | rfl <;> decide⟩
    rw [hw, ← List.cons_append, List.getLast?_concat]
    rfl

end Token.Genuine

namespace Derives

variable {xs : List Token} {p : Phrase} {l : Tier} {e : Node}

theorem starts_source (h : Derives xs (.expression l e)) (hxs : ∀ t ∈ xs, t.Genuine) :
    Text.Starts e.source :=
  h.exists_source_head hxs (fun _ ht _ => ht.starts) (by decide) rfl

theorem ends_source (h : Derives xs p) (hxs : ∀ t ∈ xs, t.Genuine)
    (hp : p = .expression l e) : Text.Ends e.source := by
  induction h generalizing l e with
  | chain _ _ _ _ _ _ ihb | power _ _ _ _ ihb =>
    cases hp
    obtain ⟨-, -, hy⟩ := Token.Genuine.split hxs
    exact (ihb hy rfl).prepend _
  | unary _ _ ih =>
    cases hp
    exact (ih (List.forall_mem_cons.mp hxs).2 rfl).prepend _
  | member =>
    cases hp
    obtain ⟨-, -, hs⟩ := Token.Genuine.split hxs
    exact (hs _ (List.mem_singleton_self _)).ends.prepend _
  | name hk =>
    cases hp
    exact (hxs _ (List.mem_singleton_self _)).ends
  | literal hl =>
    cases hp
    have ht := hxs _ (List.mem_singleton_self _)
    have htext : (Node.literal _).source = _ := hl.text_eq ht
    rw [htext]
    exact ht.ends
  | call | index | paren | list =>
    cases hp
    exact Text.Ends.prepend ⟨_, rfl, by decide⟩ _
  | tighter _ ih =>
    cases hp
    exact ih hxs rfl
  | _ => cases hp

/-- **There is nothing to trim** from the source of an expression. -/
theorem trim_source (h : Derives xs (.expression l e)) (hxs : ∀ t ∈ xs, t.Genuine) :
    Text.trim e.source = e.source :=
  Text.trim_eq (h.starts_source hxs) (h.ends_source hxs rfl)

end Derives

end ShapeFault
