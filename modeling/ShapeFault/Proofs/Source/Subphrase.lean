import ShapeFault.Proofs.Source.RoundTrip

/-!
# Expressions within a line

Every tree within the tree of a line was derived from a run of tokens of the line, and it was
derived as an expression, so it can stand on its own (`DerivesLine.exists_run`). Only a line as a
whole can be an assignment (`Derives.node_ne_assign`).
-/

namespace ShapeFault

open Token (Kind)

/-! ### Runs of tokens -/

/-- Whatever stands within the trees `es` was derived as an expression from a run of the tokens
`xs`. -/
def RunsIn (xs : List Token) (es : List Node) : Prop :=
  ∀ e ∈ es, ∀ m, e.Contains m → ∃ ys l, ys <:+: xs ∧ Derives ys (.expression l m)

namespace RunsIn

variable {xs ys : List Token} {es es' : List Node}

theorem nil (xs : List Token) : RunsIn xs [] :=
  nofun

theorem mono (h : RunsIn xs es) (hrun : xs <:+: ys) : RunsIn ys es := by
  intro e he m hm
  obtain ⟨zs, l, hzs, hder⟩ := h e he m hm
  exact ⟨zs, l, hzs.trans hrun, hder⟩

theorem append (h : RunsIn xs es) (h' : RunsIn xs es') : RunsIn xs (es ++ es') :=
  List.forall_mem_append.mpr ⟨h, h'⟩

theorem cons (h : RunsIn xs es) (t : Token) : RunsIn (t :: xs) es :=
  h.mono (List.suffix_cons t xs).isInfix

theorem append_right (h : RunsIn xs es) (ys : List Token) : RunsIn (xs ++ ys) es :=
  h.mono (List.prefix_append xs ys).isInfix

/-- The trees of two runs with a token between them. -/
theorem pair (h : RunsIn xs es) (h' : RunsIn ys es') (t : Token) :
    RunsIn (xs ++ t :: ys) (es ++ es') :=
  (h.append_right _).append ((h'.cons t).mono (List.suffix_append xs _).isInfix)

/-- A tree within an expression is the expression itself or stands within one of its parts. -/
theorem expression {l : Tier} {e : Node} (he : Derives xs (.expression l e))
    (h : RunsIn xs e.parts) : RunsIn xs [e] := by
  intro e' he' m hm
  obtain rfl := List.mem_singleton.mp he'
  rcases Node.contains_iff.mp hm with rfl | ⟨p, hp, hpm⟩
  · exact ⟨xs, l, List.infix_rfl, he⟩
  · exact h p hp m hpm

end RunsIn

namespace Derives

variable {xs : List Token} {p : Phrase}

/-- **Trees and runs**, by induction over the productions. -/
theorem runsIn (h : Derives xs p) : RunsIn xs p.parts := by
  induction h with
  | chain hop hl ha hk hb iha ihb =>
    exact .expression (.chain hop hl ha hk hb) (iha.pair ihb _)
  | power ha hk hb iha ihb => exact .expression (.power ha hk hb) (iha.pair ihb _)
  | unary hk he ih => exact .expression (.unary hk he) (ih.cons _)
  | member he hk hs ih => exact .expression (.member he hk hs) (ih.append_right _)
  | call hf hk has hu ihf ihas =>
    exact .expression (.call hf hk has hu) ((ihf.pair ihas _).append_right _)
  | index ha hk his hu iha ihis =>
    exact .expression (.index ha hk his hu) ((iha.pair ihis _).append_right _)
  | name hk => exact .expression (.name hk) (.nil _)
  | literal hl => exact .expression (.literal hl) (.nil _)
  | paren hk he hu ih => exact .expression (.paren hk he hu) ((ih.cons _).append_right _)
  | list hk hes hu ih => exact .expression (.list hk hes hu) ((ih.cons _).append_right _)
  | tighter _ ih | oneElement _ ih | present _ ih | entry _ ih => exact ih
  | noElements | absent | ellipsis | full => exact .nil _
  | moreElements _ _ _ _ ihes ihe => exact ihes.pair ihe _
  | range _ _ _ _ iha ihb => exact (iha.pair ihb _).append (.nil _)
  | stepped _ _ _ _ _ iha ihb ihc => exact (iha.pair ihb _).pair ihc _
  | oneItem _ ih => exact ih.append (.nil _)
  | moreItems _ _ _ ihis ihi => simpa [Phrase.parts] using ihis.pair ihi _

/-- No expression is an assignment. -/
theorem node_ne_assign (h : Derives xs p) {l : Tier} {e : Node} (hp : p = .expression l e)
    (op : AssignOp) (a v : Node) : e ≠ .assign op a v := by
  induction h generalizing l with
  | tighter _ ih =>
    cases hp
    exact ih rfl
  | _ => cases hp <;> nofun

end Derives

/-- **Each tree within a line** but an assignment was derived as an expression from a run of the
tokens of the line. -/
theorem DerivesLine.exists_run {xs : List Token} {e m : Node} (h : DerivesLine xs e)
    (hm : e.Contains m) (hno : ∀ op a v, m ≠ .assign op a v) :
    ∃ ys l, ys <:+: xs ∧ Derives ys (.expression l m) := by
  cases h with
  | expression he => exact he.runsIn e (List.mem_singleton_self e) m hm
  | assign he _ _ hv =>
    rcases Node.contains_iff.mp hm with rfl | ⟨p, hp, hpm⟩
    · exact absurd rfl (hno _ _ _)
    · exact he.runsIn.pair hv.runsIn _ p hp m hpm

end ShapeFault
