import Mathlib.Data.List.Forall2
import ShapeFault.Proofs.Shape.Count
import ShapeFault.Proofs.Shape.Result
import ShapeFault.Shape.Reshape

/-!
# Reshaping

A request stands for a shape (`Resolves`): for the sizes that it lists, if they multiply to the
number of elements, or, if one size is left open, for the listed ones with the quotient in its
place. A tensor is given the shape that the request stands for in a tensor of as many elements
(`reshape_eq_ok_iff`); nothing else of the tensor takes part (`toOption_reshape_congr`).

Main statement: reshaping keeps the number of elements, so it can be gone on with, or taken back, as
if it had not happened (`reshape_keeps_count`).
-/

namespace ShapeFault.Shape

variable {s t o front back : Shape} {r : List Int}

/-! ### Requests -/

/-- The request for the sizes of a shape. -/
def request (s : Shape) : List Int :=
  s.map Nat.cast

theorem request_append : (s ++ t).request = s.request ++ t.request :=
  List.map_append

theorem map_toNat_request (s : Shape) : s.request.map Int.toNat = s := by
  rw [request, List.map_map]
  exact List.map_id s

theorem nonneg_of_mem_request {d : Int} (h : d ∈ s.request) : 0 ≤ d := by
  obtain ⟨n, -, rfl⟩ := List.mem_map.mp h
  exact Int.natCast_nonneg n

theorem filter_request (s : Shape) : s.request.filter (0 ≤ ·) = s.request :=
  List.filter_eq_self.mpr fun _ h => decide_eq_true (nonneg_of_mem_request h)

theorem count_request (s : Shape) : s.request.count (-1) = 0 :=
  List.count_eq_zero.mpr fun h => by simpa using nonneg_of_mem_request h

theorem any_request (s : Shape) : s.request.any (· < -1) = false := by
  rw [List.any_eq_false]
  intro d hd
  have hd := nonneg_of_mem_request hd
  rw [decide_eq_true_eq]
  omega

/-- Sizes that are requested are given as they are. -/
theorem map_getD_request (q : Nat) (s : Shape) :
    (s.request.map fun d => if d < 0 then q else d.toNat) = s := by
  refine (List.map_congr_left fun d hd => ?_).trans (map_toNat_request s)
  exact if_neg (Int.not_lt.mpr (nonneg_of_mem_request hd))

/-- Integers that are not negative request the sizes of a shape. -/
theorem exists_request (h : ∀ d ∈ r, 0 ≤ d) : ∃ s : Shape, r = s.request := by
  refine ⟨r.map Int.toNat, ?_⟩
  rw [request, List.map_map]
  exact (List.map_id r).symm.trans
    (List.map_congr_left fun d hd => (Int.toNat_of_nonneg (h d hd)).symm)

/-- A request that leaves at most one size open, by -1, and has no other negative size, lists the
sizes of a shape or those of two shapes around the open one. -/
theorem request_cases (hcount : r.count (-1) ≤ 1) (hlow : ∀ d ∈ r, -1 ≤ d) :
    (∃ t : Shape, r = t.request) ∨
      ∃ front back : Shape, r = front.request ++ -1 :: back.request := by
  have hnonneg {ds : List Int} (hds : ∀ d ∈ ds, d ∈ r) (hopen : -1 ∉ ds) : ∀ d ∈ ds, 0 ≤ d := by
    intro d hd
    have hne : d ≠ -1 := ne_of_mem_of_not_mem hd hopen
    have hle := hlow d (hds d hd)
    omega
  by_cases hmem : -1 ∈ r
  · obtain ⟨front, back, rfl⟩ := List.append_of_mem hmem
    rw [List.count_append, List.count_cons_self] at hcount
    obtain ⟨front, rfl⟩ := exists_request (hnonneg (fun d hd => List.mem_append_left _ hd)
      (List.count_eq_zero.mp (by omega)))
    obtain ⟨back, rfl⟩ := exists_request
      (hnonneg (fun d hd => List.mem_append_right _ (List.mem_cons_of_mem _ hd))
        (List.count_eq_zero.mp (by omega)))
    exact Or.inr ⟨front, back, rfl⟩
  · exact Or.inl (exists_request (hnonneg (fun _ hd => hd) hmem))

/-! ### What a request stands for -/

/-- The shape that a request stands for in a tensor of `size` elements. -/
inductive Resolves (size : Nat) : List Int → Shape → Prop where
  /-- all sizes are listed -/
  | listed {o : Shape} (hsize : checkedProduct o = some size) : Resolves size o.request o
  /-- one size is left open: it is the quotient by the product of the other ones -/
  | inferred {front back : Shape} {known q : Nat}
      (hknown : checkedProduct (front ++ back) = some known) (hpos : known ≠ 0)
      (hsize : known * q = size) :
      Resolves size (front.request ++ -1 :: back.request) (front ++ q :: back)

/-- A request for the sizes of a shape is answered by this shape if it has as many elements. -/
theorem reshape_request (s t : Shape) : reshape s t.request =
    if ∃ n, t.elementCount = some n ∧ s.elementCount = some n then .ok t
    else .error (.notReshapable s t.request) := by
  have hcount : checkedProduct t = t.elementCount := rfl
  simp only [reshape, count_request, any_request, filter_request, map_toNat_request, hcount]
  cases s.elementCount with
  | none => simp
  | some size =>
    cases t.elementCount with
    | none => simp
    | some known => simp [eq_comm]

theorem toOption_reshape_open (s front back : Shape) :
    (reshape s (front.request ++ -1 :: back.request)).toOption =
      s.elementCount.bind fun size => (checkedProduct (front ++ back)).bind fun known =>
        if known = 0 ∨ size % known ≠ 0 then none else some (front ++ size / known :: back) := by
  have hcount : (front.request ++ -1 :: back.request).count (-1) = 1 := by
    rw [List.count_append, List.count_cons_self, count_request, count_request]
  have hany : (front.request ++ -1 :: back.request).any (· < -1) = false := by
    rw [List.any_append, List.any_cons, any_request, any_request]
    rfl
  have hlisted : ((front.request ++ -1 :: back.request).filter (0 ≤ ·)).map Int.toNat =
      front ++ back := by
    rw [List.filter_append, List.filter_cons_of_neg (by decide), filter_request, filter_request,
      ← request_append, map_toNat_request]
  have hfilled (q : Nat) : ((front.request ++ -1 :: back.request).map fun d =>
      if d < 0 then q else d.toNat) = front ++ q :: back := by
    rw [List.map_append, List.map_cons, map_getD_request, map_getD_request, if_pos (by decide)]
  simp only [reshape, hcount, hany, hlisted, hfilled]
  rw [if_neg (by decide), if_neg (by decide)]
  cases s.elementCount with
  | none => rfl
  | some size =>
    cases checkedProduct (front ++ back) with
    | none => rfl
    | some known =>
      simp only [Option.bind_some, if_true]
      split <;> rfl

/-- A request that is answered has the form of one. -/
theorem request_cases_of_reshape (h : reshape s r = .ok o) :
    (∃ t : Shape, r = t.request) ∨
      ∃ front back : Shape, r = front.request ++ -1 :: back.request := by
  by_cases hmany : 1 < r.count (-1)
  · rw [reshape, if_pos hmany] at h
    cases h
  · by_cases hlow : r.any (· < -1) = true
    · rw [reshape, if_neg hmany, if_pos hlow] at h
      cases h
    · refine request_cases (Nat.le_of_not_lt hmany) fun d hd => Int.not_lt.mp fun hlt => hlow ?_
      exact List.any_eq_true.mpr ⟨d, hd, decide_eq_true hlt⟩

/-- **What reshaping gives**: the shape that the request stands for in a tensor of as many elements.
-/
theorem reshape_eq_ok_iff :
    reshape s r = .ok o ↔ ∃ size, s.elementCount = some size ∧ Resolves size r o := by
  constructor
  · intro h
    rcases request_cases_of_reshape h with ⟨t, rfl⟩ | ⟨front, back, rfl⟩
    · rw [reshape_request] at h
      split at h
      next hcount =>
        obtain ⟨n, ht, hs⟩ := hcount
        obtain rfl := Except.ok.inj h
        exact ⟨n, hs, .listed ht⟩
      next => cases h
    · rw [← toOption_eq_some_iff, toOption_reshape_open] at h
      obtain ⟨size, hsize, h⟩ := Option.bind_eq_some_iff.mp h
      obtain ⟨known, hknown, h⟩ := Option.bind_eq_some_iff.mp h
      obtain ⟨hdivides, ho⟩ := Option.ite_none_left_eq_some.mp h
      obtain rfl := Option.some.inj ho
      obtain ⟨hpos, hmod⟩ := not_or.mp hdivides
      have hdvd : known ∣ size := Nat.dvd_of_mod_eq_zero (not_not.mp hmod)
      exact ⟨size, hsize, .inferred hknown hpos (Nat.mul_div_cancel' hdvd)⟩
  · rintro ⟨size, hsize, h⟩
    cases h with
    | listed hlisted =>
      rw [reshape_request, if_pos ⟨size, hlisted, hsize⟩]
    | @inferred front back known q hknown hpos hproduct =>
      have hquotient : size / known = q := by
        rw [← hproduct, Nat.mul_div_cancel_left _ (Nat.pos_of_ne_zero hpos)]
      have hmod : size % known = 0 := by
        rw [← hproduct, Nat.mul_mod_right]
      rw [← toOption_eq_some_iff, toOption_reshape_open, hsize, hknown, Option.bind_some,
        Option.bind_some, if_neg (by simp [hpos, hmod]), hquotient]

namespace Resolves

variable {size : Nat}

/-- The shape has an axis for every entry of the request, of the size that it lists. -/
theorem sizes (h : Resolves size r o) :
    List.Forall₂ (fun (d : Int) (n : Nat) => d = -1 ∨ d = n) r o := by
  have hlisted (s : Shape) :
      List.Forall₂ (fun (d : Int) (n : Nat) => d = -1 ∨ d = n) s.request s :=
    List.forall₂_map_left_iff.mpr (List.forall₂_same.mpr fun _ _ => Or.inr rfl)
  cases h with
  | listed => exact hlisted o
  | @inferred front back =>
    exact List.rel_append (hlisted front) (.cons (Or.inl rfl) (hlisted back))

/-- The shape has as many elements as it was asked for. -/
theorem elementCount_eq (h : Resolves size r o) (hsize : size < Word.count) :
    o.elementCount = some size := by
  cases h with
  | listed hlisted => exact hlisted
  | inferred hknown hpos hproduct =>
    subst hproduct
    exact checkedProduct_insert hknown hpos hsize

end Resolves

/-! ### Reshaping again -/

/-- Shapes with as many elements, or none that could be counted, are reshaped alike. -/
theorem toOption_reshape_congr (h : s.elementCount = t.elementCount) (r : List Int) :
    (reshape s r).toOption = (reshape t r).toOption := by
  refine Option.ext fun o => ?_
  rw [toOption_eq_some_iff, toOption_eq_some_iff, reshape_eq_ok_iff, reshape_eq_ok_iff, h]

/-- **Reshaping keeps the number of elements**, and nothing else of the source: let a request be
answered. Then the answer has an axis for every entry of the request, of the size that it lists if
it is not left open; both shapes have as many elements, a number that is a word; every other request
is answered for the one as it is for the other; and the sizes of the source lead back to it. -/
theorem reshape_keeps_count (h : reshape s r = .ok o) :
    List.Forall₂ (fun (d : Int) (n : Nat) => d = -1 ∨ d = n) r o ∧
      (∃ n, s.elementCount = some n ∧ o.elementCount = some n) ∧
      (∀ r', (reshape o r').toOption = (reshape s r').toOption) ∧
      reshape o s.request = .ok s := by
  obtain ⟨n, hs, hresolves⟩ := reshape_eq_ok_iff.mp h
  have ho : o.elementCount = some n := hresolves.elementCount_eq (lt_count_of_checkedProduct hs)
  refine ⟨hresolves.sizes, ⟨n, hs, ho⟩, toOption_reshape_congr (ho.trans hs.symm), ?_⟩
  exact reshape_eq_ok_iff.mpr ⟨n, ho, .listed hs⟩

/-- A tensor without elements, one of whose sizes is left open. -/
theorem reshape_without_elements :
    reshape [4, 0, 6] [2, -1, 3] = .ok [2, 0, 3] ∧ reshape [2, 0, 3] [4, 0, 6] = .ok [4, 0, 6] ∧
      (reshape [4, 0, 6] [0, 5]).toOption = some [0, 5] := by
  have h : reshape [4, 0, 6] [2, -1, 3] = .ok [2, 0, 3] := rfl
  obtain ⟨-, -, hagain, hback⟩ := reshape_keeps_count h
  exact ⟨h, hback, (hagain [0, 5]).symm.trans rfl⟩

end ShapeFault.Shape
