import ShapeFault.Expr.Source

/-!
# Texts that can be told apart in front of a rest

`Decodes stops text P x` says that the text of `x`, in front of a rest that starts with one of the
characters `stops`, is the text of nothing else with `P`, and ends where the rest begins. Things
that decode in front of a separator make a list that decodes in front of what closes it
(`Decodes.joined`), and the list may be empty where no member starts with what closes it
(`Decodes.bracketed`).
-/

namespace ShapeFault

/-- The rest starts with one of the characters. -/
def StopsAt (stops : List Char) (rest : List Char) : Prop :=
  ∃ c ∈ stops, c ∈ rest.head?

namespace StopsAt

variable {stops stops' rest : List Char} {c : Char}

theorem cons (hc : c ∈ stops) (rest : List Char) : StopsAt stops (c :: rest) :=
  ⟨c, hc, rfl⟩

theorem mono (h : StopsAt stops rest) (hsub : stops ⊆ stops') : StopsAt stops' rest := by
  obtain ⟨c, hc, hhead⟩ := h
  exact ⟨c, hsub hc, hhead⟩

/-- A rest that starts with a character starts with no other one. -/
theorem mem_of_cons (h : StopsAt stops (c :: rest)) : c ∈ stops := by
  obtain ⟨_, hc, ⟨⟩⟩ := h
  exact hc

end StopsAt

variable {α : Type} {text : α → String} {P : α → Prop} {stops ends : List Char} {c : Char} {x : α}

/-- In front of each rest that starts with one of `stops`, the text of `x` is that of nothing else
with `P`. -/
def Decodes (stops : List Char) (text : α → String) (P : α → Prop) (x : α) : Prop :=
  ∀ y, P y → ∀ r s, StopsAt stops r → StopsAt stops s →
    (text x).toList ++ r = (text y).toList ++ s → x = y ∧ r = s

theorem Decodes.mono (h : Decodes stops text P x) (hsub : ends ⊆ stops) : Decodes ends text P x :=
  fun y hy r s hr hs => h y hy r s (hr.mono hsub) (hs.mono hsub)

/-- Texts, each behind a separator. -/
def behindEach (sep : List Char) (text : α → String) (xs : List α) : List Char :=
  xs.flatMap fun x => sep ++ (text x).toList

/-- A list with separators: the first member is written without one. -/
theorem toList_intercalate_map_cons (sep : String) (xs : List α) :
    (String.intercalate sep ((x :: xs).map text)).toList =
      (text x).toList ++ behindEach sep.toList text xs := by
  induction xs generalizing x with
  | nil => simp [behindEach]
  | cons y ys ih =>
    have htail := ih (x := y)
    rw [List.map_cons] at htail ⊢
    rw [List.map_cons, String.intercalate_cons_cons, String.toList_append, String.toList_append,
      htail]
    simp [behindEach]

variable {more : List Char} {xs ys : List α} {y : α} {r s : List Char}

theorem stopsAt_behindEach (hr : StopsAt ends r) :
    StopsAt (c :: ends) (behindEach (c :: more) text xs ++ r) := by
  cases xs with
  | nil => exact hr.mono (List.subset_cons_self c ends)
  | cons x xs => exact .cons List.mem_cons_self _

/-- Where a list can end, it does not go on. -/
theorem ne_behindEach_cons (hc : c ∉ ends) (hr : StopsAt ends r) :
    r ≠ behindEach (c :: more) text (y :: ys) ++ s := by
  rintro rfl
  exact hc hr.mem_of_cons

namespace Decodes

/-- **Lists.** Members that decode in front of a separator and of what can close the list make a
list that decodes in front of what can close it. -/
theorem joined (hc : c ∉ ends) (hx : Decodes (c :: ends) text P x)
    (hxs : ∀ x ∈ xs, Decodes (c :: ends) text P x) (hy : P y) (hys : ∀ y ∈ ys, P y)
    (hr : StopsAt ends r) (hs : StopsAt ends s)
    (htext : (text x).toList ++ (behindEach (c :: more) text xs ++ r) =
      (text y).toList ++ (behindEach (c :: more) text ys ++ s)) :
    x :: xs = y :: ys ∧ r = s := by
  induction xs generalizing x y ys with
  | nil =>
    obtain ⟨rfl, hrest⟩ := hx y hy _ _ (stopsAt_behindEach hr) (stopsAt_behindEach hs) htext
    cases ys with
    | nil => exact ⟨rfl, hrest⟩
    | cons => exact absurd hrest (ne_behindEach_cons hc hr)
  | cons x' xs ih =>
    obtain ⟨rfl, hrest⟩ := hx y hy _ _ (stopsAt_behindEach hr) (stopsAt_behindEach hs) htext
    cases ys with
    | nil => exact absurd hrest.symm (ne_behindEach_cons hc hs)
    | cons y' ys =>
      rw [List.forall_mem_cons] at hxs hys
      simp only [behindEach, List.flatMap_cons, List.append_assoc] at hrest
      obtain ⟨heq, hrs⟩ := ih hxs.1 hxs.2 hys.1 hys.2 (List.append_cancel_left hrest)
      exact ⟨congrArg (x :: ·) heq, hrs⟩

/-- **Lists between brackets**, with commas between the members. No member starts with the closing
bracket, hence an empty list is told from the other ones. -/
theorem bracketed (hxs : ∀ x ∈ xs, Decodes [',', ']'] text P x) (hys : ∀ y ∈ ys, P y)
    (hstart : ∀ z, z ∈ xs ∨ z ∈ ys → ∀ r s, StopsAt [',', ']'] r →
      (text z).toList ++ r ≠ ']' :: s)
    (htext : (commaSeparated (xs.map text)).toList ++ ']' :: r =
      (commaSeparated (ys.map text)).toList ++ ']' :: s) : xs = ys ∧ r = s := by
  have hclose : ∀ t, StopsAt [']'] (']' :: t) := .cons List.mem_cons_self
  unfold commaSeparated at htext
  cases xs with
  | nil =>
    cases ys with
    | nil => exact ⟨rfl, (List.cons.inj htext).2⟩
    | cons y ys =>
      rw [toList_intercalate_map_cons, List.append_assoc] at htext
      exact absurd htext.symm
        (hstart y (Or.inr List.mem_cons_self) _ _ (stopsAt_behindEach (hclose s)))
  | cons x xs =>
    rw [toList_intercalate_map_cons, List.append_assoc] at htext
    cases ys with
    | nil =>
      exact absurd htext (hstart x (Or.inl List.mem_cons_self) _ _ (stopsAt_behindEach (hclose r)))
    | cons y ys =>
      rw [toList_intercalate_map_cons, List.append_assoc] at htext
      rw [List.forall_mem_cons] at hxs hys
      obtain ⟨heq, hrs⟩ := joined (by decide) hxs.1 hxs.2 hys.1 hys.2 (hclose r) (hclose s) htext
      exact ⟨heq, (List.cons.inj hrs).2⟩

end Decodes

end ShapeFault
